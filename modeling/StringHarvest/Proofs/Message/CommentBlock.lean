import Mathlib.Data.Nat.Find
import Mathlib.Order.Bounds.Basic
import StringHarvest.Message.CommentAbove
import StringHarvest.Proofs.Text.Pieces

/-!
# The comment block above a line

The comment above a line is looked for from the line before it upwards, as long as lines
start with the mark. Here the block that is found is told by where it starts
(`blockStarts`), without the search.

**Main theorem** (`commentAbove?_block`): for all lines and every line number, also the numbers 0
and 1 and those behind the last line, there is a smallest number from which on all lines above the
given one are marked. The search goes up to there and never from the first line on to a line before
it. There is a comment exactly if the line above is there and marked, and it is what the lines of
the block say, with line feeds between them. In a source that has been read, no line says a line
feed, so these texts are found again in the comment.
-/

namespace StringHarvest

/-! ### Comment lines -/

/-- Whether a line starts with the mark of a comment. -/
def IsMarked (line : String) : Prop := "///".toList <+: line.toList

instance : DecidablePred IsMarked :=
  fun line => inferInstanceAs (Decidable ("///".toList <+: line.toList))

/-- What a line says behind the mark. -/
def said (line : String) : String := String.ofList (Text.trim (line.toList.drop 3))

/-- Whether there is a line with the given number that starts with the mark. -/
def IsCommentLine (lines : List String) (number : Nat) : Prop :=
  ∃ line, Source.line? lines number = some line ∧ IsMarked line

/-- A marked line gives what it says. -/
theorem commentText?_of_isMarked {line : String} (h : IsMarked line) :
    commentText? line = some (said line) := by
  obtain ⟨rest, hrest⟩ := h
  unfold commentText? said
  rw [← hrest]
  rfl

/-- A line that is not marked gives nothing. -/
theorem commentText?_eq_none_iff {line : String} : commentText? line = none ↔ ¬ IsMarked line := by
  constructor
  · intro hnone hmarked
    rw [commentText?_of_isMarked hmarked] at hnone
    cases hnone
  · intro hunmarked
    unfold commentText?
    split
    · rename_i rest hrest
      exact absurd ⟨rest, hrest.symm⟩ hunmarked
    · rfl

/-- Before the first line there is none. -/
theorem not_isCommentLine_zero (lines : List String) : ¬ IsCommentLine lines 0 := by
  rintro ⟨line, hline, -⟩
  cases hline

variable {lines : List String} {n a : Nat}

/-- No comment is at a place where no comment line stands. -/
theorem text?_eq_none_iff :
    (Source.line? lines n).bind commentText? = none ↔ ¬ IsCommentLine lines n := by
  unfold IsCommentLine
  rcases Source.line? lines n with _ | line
  · simp
  · simp [commentText?_eq_none_iff]

/-! ### Blocks -/

/-- The numbers from which on all lines above the line `n` are marked. -/
def blockStarts (lines : List String) (n : Nat) : Set Nat :=
  {a | ∀ k, a ≤ k → k < n → IsCommentLine lines k}

/-- What the lines from `a` on say that stand above the line `n`. -/
def blockTexts (lines : List String) (a n : Nat) : List String :=
  ((lines.drop (a - 1)).take (n - a)).map said

/-- The block above a line has a first line. -/
theorem exists_isLeast_blockStarts (lines : List String) (n : Nat) :
    ∃ a, IsLeast (blockStarts lines n) a := by
  classical
  have hstart : ∃ a, a ∈ blockStarts lines n := ⟨n, fun k hle hlt => absurd hle (by omega)⟩
  exact ⟨Nat.find hstart, Nat.find_spec hstart, fun b hb => Nat.find_min' hstart hb⟩

/-- A block starts at the line itself if there is nothing above, and otherwise behind line 0. -/
theorem bounds_of_isLeast (h : IsLeast (blockStarts lines n) a) : a ≤ n ∧ (0 < n → 0 < a) := by
  refine ⟨h.2 fun k hle hlt => absurd hle (by omega), fun hn => Nat.pos_of_ne_zero fun ha => ?_⟩
  exact not_isCommentLine_zero lines (h.1 0 (by omega) hn)

/-- The block is empty exactly if the line above is no comment. -/
theorem lt_iff_of_isLeast (h : IsLeast (blockStarts lines n) a) :
    a < n ↔ IsCommentLine lines (n - 1) := by
  constructor
  · intro hlt
    exact h.1 (n - 1) (by omega) (by omega)
  · intro hline
    have hn : n - 1 ≠ 0 := fun hzero => not_isCommentLine_zero lines (hzero ▸ hline)
    have hle : a ≤ n - 1 := h.2 fun k hle hlt => by
      obtain rfl : k = n - 1 := by omega
      exact hline
    omega

/-- A marked line belongs to the block of the lines above it. -/
theorem blockStarts_succ (h : IsCommentLine lines n) :
    blockStarts lines (n + 1) = blockStarts lines n := by
  ext a
  constructor
  · intro ha k hle hlt
    exact ha k hle (by omega)
  · intro ha k hle hlt
    rcases Nat.lt_succ_iff_lt_or_eq.mp hlt with hlt | rfl
    · exact ha k hle hlt
    · exact h

/-- One more marked line adds what it says. -/
theorem blockTexts_succ {line : String} (hline : Source.line? lines n = some line) (ha : 0 < a)
    (han : a ≤ n) : blockTexts lines a (n + 1) = blockTexts lines a n ++ [said line] := by
  obtain ⟨k, rfl⟩ := Nat.exists_eq_add_of_le' (Nat.lt_of_lt_of_le ha han)
  have hget : (lines.drop (a - 1))[k + 1 - a]? = some line := by
    rw [List.getElem?_drop, show a - 1 + (k + 1 - a) = k by omega]
    exact hline
  unfold blockTexts
  rw [show k + 1 + 1 - a = k + 1 - a + 1 by omega, List.take_add_one, hget, List.map_append]
  rfl

/-- Where the line above is no comment, no line says anything. -/
theorem blockTexts_eq_nil (h : IsLeast (blockStarts lines n) a)
    (hnone : ¬ IsCommentLine lines (n - 1)) : blockTexts lines a n = [] := by
  have hbounds := bounds_of_isLeast h
  have hlt := mt (lt_iff_of_isLeast h).mp hnone
  obtain rfl : a = n := by omega
  simp [blockTexts]

/-- As many lines say something as there are from the start of the block on. -/
theorem length_blockTexts (h : IsLeast (blockStarts lines n) a) :
    (blockTexts lines a n).length = n - a := by
  by_cases hcomment : IsCommentLine lines (n - 1)
  · have hlt := (lt_iff_of_isLeast h).mpr hcomment
    obtain ⟨line, hline, -⟩ := hcomment
    obtain ⟨k, hk⟩ : ∃ k, n - 1 = k + 1 := Nat.exists_eq_succ_of_ne_zero fun hzero => by
      rw [hzero] at hline
      cases hline
    rw [hk] at hline
    obtain ⟨hlength, -⟩ := List.getElem?_eq_some_iff.mp hline
    have hpos := (bounds_of_isLeast h).2 (by omega)
    rw [blockTexts, List.length_map, List.length_take, List.length_drop]
    omega
  · have hlt := mt (lt_iff_of_isLeast h).mp hcomment
    rw [blockTexts_eq_nil h hcomment, List.length_nil]
    omega

/-- **The search finds the block**, line by line. -/
theorem commentTexts_eq_blockTexts (h : IsLeast (blockStarts lines (n + 1)) a) :
    commentTexts lines n = blockTexts lines a (n + 1) := by
  induction n with
  | zero => rw [commentTexts, blockTexts_eq_nil h (not_isCommentLine_zero lines)]
  | succ n ih =>
      rw [commentTexts]
      by_cases hcomment : IsCommentLine lines (n + 1)
      · have habove : IsLeast (blockStarts lines (n + 1)) a := blockStarts_succ hcomment ▸ h
        obtain ⟨hle, hpos⟩ := bounds_of_isLeast habove
        obtain ⟨line, hline, hmarked⟩ := hcomment
        rw [hline, Option.bind_some, commentText?_of_isMarked hmarked,
          blockTexts_succ hline (hpos n.succ_pos) hle, ← ih habove]
      · rw [text?_eq_none_iff.mpr hcomment, blockTexts_eq_nil h hcomment]

/-- To climb from the line above is to collect the texts of the block. -/
theorem commentTexts_pred_eq_blockTexts (h : IsLeast (blockStarts lines n) a) :
    commentTexts lines (n - 1) = blockTexts lines a n := by
  rcases n with _ | n
  · rw [commentTexts, blockTexts_eq_nil h (not_isCommentLine_zero lines)]
  · exact commentTexts_eq_blockTexts h

/-- The same search with what has been collected so far, the lowest line first. It takes the line
number back by one behind every comment line, and fails where there is nothing to take back. -/
def climb (lines : List String) : (collected : List String) → (number : Nat) → Option (List String)
  | collected, 0 =>
    match (Source.line? lines 0).bind commentText? with
    | some _ => none
    | none => some collected.reverse
  | collected, n + 1 =>
    match (Source.line? lines (n + 1)).bind commentText? with
    | some text => climb lines (collected ++ [text]) n
    | none => some collected.reverse

/-- **The search upwards ends** at every line number, and never goes on above the first line. -/
theorem climb_eq (lines collected : List String) (n : Nat) :
    climb lines collected n = some (commentTexts lines n ++ collected.reverse) := by
  induction n generalizing collected with
  | zero => rfl
  | succ n ih =>
      rw [climb, commentTexts]
      rcases (Source.line? lines (n + 1)).bind commentText? with _ | text
      · rfl
      · dsimp only
        rw [ih, List.reverse_append, List.append_assoc]
        rfl

/-! ### Comments -/

/-- The comment is what the block says, if there is one. -/
theorem commentAbove?_eq (h : IsLeast (blockStarts lines n) a) :
    commentAbove? lines n =
      if a < n then some ("\n".intercalate (blockTexts lines a n)) else none := by
  have hlength := length_blockTexts h
  unfold commentAbove?
  rw [commentTexts_pred_eq_blockTexts h]
  rcases htexts : blockTexts lines a n with _ | ⟨text, texts⟩ <;> rw [htexts] at hlength
  · rw [if_neg (by simp at hlength; omega)]
  · rw [if_pos (by simp at hlength; omega)]

/-! ### Lines of a source -/

/-- Trimming leaves characters out. -/
theorem Text.trim_sublist (cs : List Char) : (Text.trim cs).Sublist cs := by
  have hdrop : (cs.dropWhile Text.isBlank).Sublist cs := List.dropWhile_sublist _
  have hend : ((cs.dropWhile Text.isBlank).reverse.dropWhile Text.isBlank).Sublist
      (cs.dropWhile Text.isBlank).reverse := List.dropWhile_sublist _
  unfold Text.trim Text.trimEnd
  exact (List.reverse_reverse _ ▸ hend.reverse).trans hdrop

/-- A line between two line feeds says none. -/
theorem lineFeed_notMem_said {text line : String} (h : line ∈ Text.trimmedLines text) :
    '\n' ∉ (said line).toList := by
  obtain ⟨piece, hpiece, rfl⟩ := List.mem_map.mp h
  rw [Text.splitAt_eq_splitOn] at hpiece
  have hsub : (Text.trim ((Text.trim piece).drop 3)).Sublist piece :=
    ((Text.trim_sublist _).trans (List.drop_sublist _ _)).trans (Text.trim_sublist _)
  rw [said, String.toList_ofList, String.toList_ofList]
  exact fun hmem => Path.notMem_of_mem_splitOn hpiece (hsub.subset hmem)

/-- The lines of a source are those of its text, trimmed. -/
theorem lines_of_parse {text path : String} {language : Language} {source : Source}
    (h : Source.parse text path language = .ok source) : source.lines = Text.trimmedLines text := by
  unfold Source.parse at h
  dsimp only at h
  split at h
  · obtain rfl := Except.ok.inj h
    rfl
  · cases h

/-- A comment is split into the texts of its block again. -/
theorem splitAt_comment {text comment : String}
    (h : IsLeast (blockStarts (Text.trimmedLines text) n) a)
    (hcomment : commentAbove? (Text.trimmedLines text) n = some comment) :
    Text.splitAt '\n' comment.toList =
      (blockTexts (Text.trimmedLines text) a n).map String.toList := by
  have hlength := length_blockTexts h
  rw [commentAbove?_eq h] at hcomment
  split at hcomment
  · rename_i hlt
    obtain rfl := Option.some.inj hcomment
    refine Text.splitAt_intercalate rfl (List.ne_nil_of_length_pos (by omega)) fun t ht => ?_
    obtain ⟨line, hline, rfl⟩ := List.mem_map.mp ht
    exact lineFeed_notMem_said (List.mem_of_mem_drop (List.mem_of_mem_take hline))
  · cases hcomment

/-- **The comment block above a line.** For all lines and every line number there is a smallest
number from which on all lines above are marked, and the search upwards ends there with what
these lines say. There is no comment exactly if the number is below 2 or the line above is
missing or not marked. Otherwise the comment is what the lines of the block say, from first to
last and with line feeds between them; if the lines are those of a source that has been read,
these texts are found again in it. -/
theorem commentAbove?_block (lines : List String) (n : Nat) :
    ∃ a, IsLeast {a | ∀ k, a ≤ k → k < n → IsCommentLine lines k} a ∧
      climb lines [] (n - 1) = some (blockTexts lines a n) ∧
      (commentAbove? lines n = none ↔
        n < 2 ∨ Source.line? lines (n - 1) = none ∨
          ∃ line, Source.line? lines (n - 1) = some line ∧ ¬ IsMarked line) ∧
      (commentAbove? lines n ≠ none →
        a < n ∧ (blockTexts lines a n).length = n - a ∧
          commentAbove? lines n = some ("\n".intercalate (blockTexts lines a n))) ∧
      ∀ text path language source, Source.parse text path language = .ok source →
        lines = source.lines → ∀ comment, commentAbove? lines n = some comment →
          Text.splitAt '\n' comment.toList = (blockTexts lines a n).map String.toList := by
  obtain ⟨a, ha⟩ := exists_isLeast_blockStarts lines n
  have hcomment := commentAbove?_eq ha
  refine ⟨a, ha, ?_, ?_, fun hsome => ?_, fun text path language source hparse hlines comment => ?_⟩
  · rw [climb_eq, commentTexts_pred_eq_blockTexts ha]
    exact congrArg some (List.append_nil _)
  · have hnone : commentAbove? lines n = none ↔ ¬ IsCommentLine lines (n - 1) := by
      rw [← lt_iff_of_isLeast ha, hcomment]
      simp
    rw [hnone]
    constructor
    · intro hline
      rcases habove : Source.line? lines (n - 1) with _ | line
      · exact .inr (.inl rfl)
      · exact .inr (.inr ⟨line, rfl, fun hmarked => hline ⟨line, habove, hmarked⟩⟩)
    · rintro (hn | hmissing | ⟨line, hline, hunmarked⟩) ⟨other, hother, hmarked⟩
      · rw [show n - 1 = 0 by omega] at hother
        cases hother
      · rw [hmissing] at hother
        cases hother
      · rw [hline] at hother
        exact hunmarked (Option.some.inj hother ▸ hmarked)
  · by_cases hlt : a < n
    · exact ⟨hlt, length_blockTexts ha, hcomment.trans (if_pos hlt)⟩
    · exact absurd (hcomment.trans (if_neg hlt)) hsome
  · rw [lines_of_parse hparse] at hlines
    subst hlines
    exact splitAt_comment ha

/-- Two comment lines above a call, behind a line that is none: the block starts with line 2. -/
theorem commentAbove?_block_twoLines :
    let text := "x;\n  /// First\n///\tSecond \ntr('x');"
    let lines := ["x;", "/// First", "///\tSecond", "tr('x');"]
    commentAbove? lines 4 = some "First\nSecond" ∧ climb lines [] 3 = some ["First", "Second"] ∧
      (∃ source, Source.parse text "" .javascript = .ok source ∧ lines = source.lines) ∧
      Text.splitAt '\n' "First\nSecond".toList = ["First".toList, "Second".toList] := by
  intro text lines
  obtain ⟨source, hsource, hlines⟩ :
      ∃ source, Source.parse text "" .javascript = .ok source ∧ lines = source.lines := by
    have hlines : (Source.parse text "" .javascript).toOption.map Source.lines = some lines := by
      decide +kernel
    rcases hparse : Source.parse text "" .javascript with e | source <;> rw [hparse] at hlines
    · cases hlines
    · exact ⟨source, rfl, (Option.some.inj hlines).symm⟩
  obtain ⟨a, ⟨hblock, hleast⟩, hclimb, hnone, hsome, hsplit⟩ := commentAbove?_block lines 4
  obtain rfl : a = 2 := by
    refine Nat.le_antisymm (hleast fun k hle hlt => ?_) (Nat.lt_of_not_le fun hle => ?_)
    · obtain rfl | rfl : k = 2 ∨ k = 3 := by omega
      · exact ⟨_, rfl, by decide⟩
      · exact ⟨_, rfl, by decide⟩
    · obtain ⟨line, hline, hmarked⟩ := hblock 1 hle (by omega)
      obtain rfl := Option.some.inj hline
      exact absurd hmarked (by decide)
  have htexts : blockTexts lines 2 4 = ["First", "Second"] := by decide +kernel
  have hcomment : commentAbove? lines 4 = some "First\nSecond" := by
    obtain ⟨-, -, hcomment⟩ := hsome (by decide +kernel)
    rw [hcomment, htexts]
    rfl
  have hpieces := hsplit text "" .javascript source hsource hlines _ hcomment
  rw [htexts] at hclimb hpieces
  exact ⟨hcomment, hclimb, ⟨source, hsource, hlines⟩, hpieces⟩

end StringHarvest
