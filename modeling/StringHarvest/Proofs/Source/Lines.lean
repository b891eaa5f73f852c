import Mathlib.Data.Nat.Count
import StringHarvest.Catalog.OfSource
import StringHarvest.Proofs.Text.Pieces

/-!
# Line numbers and line feeds

A source has two notions of a line. The place of an offset counts line feeds, carriage returns and
the pairs of both; the lines that are kept for the search of comments are cut at line feeds only.
The two differ by the carriage returns that stand alone.

**Main theorem** (`line_locate_agrees_iff`): the line of an offset is one more than the number of
line feeds and of lone carriage returns before it. So the two notions agree at an offset
(`Text.LinesAgree`) exactly if no lone carriage return stands before it.

The offset enters the cut at line feeds through `splitAt_append`: the pieces of a text are those of
its first part, with the last of them continued by the pieces of the second part.
-/

namespace StringHarvest

namespace Text

/-! ### The number of a line -/

/-- A carriage return that no line feed follows. -/
def LoneReturnAt (text : List Char) (i : Nat) : Prop :=
  text[i]? = some '\r' ∧ text[i + 1]? ≠ some '\n'

instance (text : List Char) : DecidablePred (LoneReturnAt text) :=
  fun _ => inferInstanceAs (Decidable (_ ∧ _))

/-- The number of line feeds before an offset. -/
def lineFeedsBefore (text : List Char) (offset : Nat) : Nat := (text.take offset).count '\n'

/-- The number of lone carriage returns before an offset. -/
def loneReturnsBefore (text : List Char) (offset : Nat) : Nat :=
  Nat.count (LoneReturnAt text) offset

/-- Whether a return is lone is told by what follows it. -/
theorem loneReturnAt_succ (c : Char) (cs : List Char) (i : Nat) :
    LoneReturnAt (c :: cs) (i + 1) ↔ LoneReturnAt cs i := by
  unfold LoneReturnAt
  rw [List.getElem?_cons_succ, List.getElem?_cons_succ]

/-- A return is lone unless a line feed follows it. -/
theorem loneReturnAt_zero (c : Char) (cs : List Char) :
    LoneReturnAt (c :: cs) 0 ↔ c = '\r' ∧ cs.head? ≠ some '\n' := by
  unfold LoneReturnAt
  rw [List.getElem?_cons_zero, List.getElem?_cons_succ, Option.some.injEq, List.head?_eq_getElem?]

/-- Lone returns are counted one by one. -/
theorem loneReturnsBefore_cons (c : Char) (cs : List Char) (offset : Nat) :
    loneReturnsBefore (c :: cs) (offset + 1) =
      loneReturnsBefore cs offset + if c = '\r' ∧ cs.head? ≠ some '\n' then 1 else 0 := by
  unfold loneReturnsBefore
  rw [Nat.count_succ']
  simp only [loneReturnAt_succ, loneReturnAt_zero]

/-- So are line feeds. -/
theorem lineFeedsBefore_cons (c : Char) (cs : List Char) (offset : Nat) :
    lineFeedsBefore (c :: cs) (offset + 1) =
      lineFeedsBefore cs offset + if c = '\n' then 1 else 0 := by
  unfold lineFeedsBefore
  rw [List.take_succ_cons, List.count_cons]
  simp only [beq_iff_eq]

/-- Going through a text, every line feed and every lone carriage return starts a line. -/
theorem line_locateFrom (line column offset : Nat) (cs : List Char) :
    (locateFrom line column offset cs).line =
      line + lineFeedsBefore cs offset + loneReturnsBefore cs offset := by
  fun_induction locateFrom line column offset cs with
  | case1 => simp [lineFeedsBefore, loneReturnsBefore]
  | case2 offset line column =>
      have hnone : ∀ i < offset, ¬ LoneReturnAt [] i := fun i _ h => nomatch h.1
      rw [loneReturnsBefore, Nat.count_of_forall_not hnone]
      simp [lineFeedsBefore]
  | case3 line column offset cs ih =>
      rw [ih, lineFeedsBefore_cons, loneReturnsBefore_cons, if_pos rfl, if_neg (by simp)]
      omega
  | case4 line column offset cs hpair ih =>
      have hpair : cs.head? = some '\n' := by simpa using hpair
      rw [ih, lineFeedsBefore_cons, loneReturnsBefore_cons, if_neg (by decide),
        if_neg (by simp [hpair])]
      omega
  | case5 line column offset cs hpair ih =>
      have hpair : cs.head? ≠ some '\n' := by simpa using hpair
      rw [ih, lineFeedsBefore_cons, loneReturnsBefore_cons, if_neg (by decide), if_pos ⟨rfl, hpair⟩]
      omega
  | case6 line column offset c cs hn hr ih =>
      rw [ih, lineFeedsBefore_cons, loneReturnsBefore_cons, if_neg hn, if_neg (fun h => hr h.1)]
      omega

/-! ### The line of an offset -/

/-- What stands around an offset up to the line feeds before and behind it. -/
def lineAround (text : List Char) (offset : Nat) : List Char :=
  (text.take offset).rtakeWhile (· != '\n') ++ (text.drop offset).takeWhile (· != '\n')

/-- The lines that have ended before an offset. -/
def linesAbove (text : List Char) (offset : Nat) : List (List Char) :=
  (splitAt '\n' (text.take offset)).dropLast

/-- There are as many lines above a place as line feeds before it. -/
theorem length_linesAbove (text : List Char) (offset : Nat) :
    (linesAbove text offset).length = lineFeedsBefore text offset := by
  rw [linesAbove, List.length_dropLast, length_splitAt, Nat.add_sub_cancel, lineFeedsBefore]

/-- The lines of a text from an offset on: those above it, the one around it, and the rest. -/
theorem exists_splitAt_eq (text : List Char) (offset : Nat) :
    ∃ below, splitAt '\n' text = linesAbove text offset ++ lineAround text offset :: below := by
  refine ⟨(splitAt '\n' (text.drop offset)).tail, ?_⟩
  conv_lhs => rw [← List.take_append_drop offset text]
  rw [splitAt_append, splitAt_eq_cons '\n' (text.drop offset), List.modifyHead_cons]
  rfl

end Text

/-! ### Agreement -/

/-- The last of some lines is the one under their number. -/
theorem Source.line?_length_append (lines below : List String) :
    line? (lines ++ below) lines.length = lines.getLast? := by
  rcases List.eq_nil_or_concat lines with rfl | ⟨front, last, rfl⟩
  · rfl
  · rw [List.concat_eq_append, List.getLast?_concat, List.length_append, List.length_singleton,
      line?, List.getElem?_append_left (by simp), List.getElem?_concat_length]

/-- The search for comments does not read behind the line where it starts. -/
theorem commentTexts_append_left (lines below : List String) {n : Nat} (hn : n ≤ lines.length) :
    commentTexts (lines ++ below) n = commentTexts lines n := by
  induction n with
  | zero => rw [commentTexts, commentTexts]
  | succ n ih =>
      have hline : Source.line? (lines ++ below) (n + 1) = Source.line? lines (n + 1) :=
        List.getElem?_append_left hn
      rw [commentTexts, commentTexts, hline, ih (by omega)]

namespace Text

/-- A line as it is kept. -/
def keptLine (line : List Char) : String := String.ofList (trim line)

/-- **The two notions of a line agree at an offset**: the place of the offset counts the line feeds
before it, its line is kept under that number, and the comment that is looked for above that line is
the one at the end of the lines above the offset. -/
structure LinesAgree (text : String) (offset : Nat) : Prop where
  /-- Only line feeds are counted. -/
  number : (locate text.toList offset).line = 1 + lineFeedsBefore text.toList offset
  /-- The line with the number is the one around the offset. -/
  here : Source.line? (trimmedLines text) (locate text.toList offset).line =
    some (keptLine (lineAround text.toList offset))
  /-- The line before it, at which the search for comments starts, is the last one above. -/
  above : Source.line? (trimmedLines text) ((locate text.toList offset).line - 1) =
    (linesAbove text.toList offset).getLast?.map keptLine
  /-- Nothing but the lines above is searched, and all of them can be reached. -/
  comment : commentAbove? (trimmedLines text) (locate text.toList offset).line =
    commentAbove? ((linesAbove text.toList offset).map keptLine)
      ((linesAbove text.toList offset).length + 1)

variable {text : String} {offset : Nat}

/-- The number of a line counts line feeds and lone returns. -/
theorem line_locate (text : List Char) (offset : Nat) :
    (locate text offset).line =
      1 + lineFeedsBefore text offset + loneReturnsBefore text offset :=
  line_locateFrom 1 1 offset text

/-- The lines of a text are those above a place, the line of the place, and others. -/
theorem exists_trimmedLines_eq (text : String) (offset : Nat) :
    ∃ below, trimmedLines text =
      (linesAbove text.toList offset).map keptLine ++
        keptLine (lineAround text.toList offset) :: below := by
  obtain ⟨below, hbelow⟩ := exists_splitAt_eq text.toList offset
  refine ⟨below.map keptLine, ?_⟩
  unfold trimmedLines
  rw [hbelow, List.map_append, List.map_cons]
  rfl

/-- Where the line feeds are counted, everything else agrees. -/
theorem linesAgree_of_number
    (h : (locate text.toList offset).line = 1 + lineFeedsBefore text.toList offset) :
    LinesAgree text offset := by
  obtain ⟨below, hlines⟩ := exists_trimmedLines_eq text offset
  have hlength : ((linesAbove text.toList offset).map keptLine).length =
      lineFeedsBefore text.toList offset := by
    rw [List.length_map, length_linesAbove]
  have hnumber : (locate text.toList offset).line =
      ((linesAbove text.toList offset).map keptLine).length + 1 := by
    rw [h, hlength, Nat.add_comm]
  refine ⟨h, ?_, ?_, ?_⟩
  · rw [hnumber, hlines, Source.line?, List.getElem?_append_right le_rfl, Nat.sub_self,
      List.getElem?_cons_zero]
  · rw [hnumber, hlines, Nat.add_sub_cancel, Source.line?_length_append, List.getLast?_map]
  · rw [hnumber, hlines, commentAbove?, commentAbove?, Nat.add_sub_cancel,
      commentTexts_append_left _ _ le_rfl, List.length_map, Nat.add_sub_cancel]

/-- **The line of an offset** is one more than the number of line feeds and of lone carriage returns
before it. So it is the line that the cut at line feeds gives, with the comment directly above it,
exactly if no lone carriage return stands before the offset. -/
theorem line_locate_agrees_iff (text : String) (offset : Nat) :
    (locate text.toList offset).line =
        1 + lineFeedsBefore text.toList offset + loneReturnsBefore text.toList offset ∧
      (LinesAgree text offset ↔ ∀ i < offset, ¬ LoneReturnAt text.toList i) := by
  have hline := line_locate text.toList offset
  refine ⟨hline, ?_⟩
  have hcount : loneReturnsBefore text.toList offset = 0 ↔
      ∀ i < offset, ¬ LoneReturnAt text.toList i := Nat.count_iff_forall_not
  rw [← hcount]
  constructor
  · intro hagree
    have hnumber := hagree.number
    omega
  · intro hnone
    refine linesAgree_of_number ?_
    omega

/-- Behind a lone carriage return the comment above a call is missed. -/
theorem not_linesAgree_behind_loneReturn :
    ¬ LinesAgree "\r/// note\ntr(\"a\")" 10 ∧
      (linesAbove "\r/// note\ntr(\"a\")".toList 10).map keptLine = ["/// note"] ∧
      (Source.parse "\r/// note\ntr(\"a\")" "" .javascript).toOption.map (fun source =>
        ((source.program.messageCalls ["tr"]).map Call.location,
          (Catalog.ofSource ["tr"] source).messages)) =
        some ([some (locate "\r/// note\ntr(\"a\")".toList 10)], [{ singular := "a" }]) := by
  refine ⟨fun hagree => ?_, by decide +kernel, by decide +kernel⟩
  have hnumber := hagree.number
  revert hnumber
  decide +kernel

end Text

end StringHarvest
