import Mathlib.Data.List.DropRight
import StringHarvest.Config.Basic
import StringHarvest.Catalog.OfSource
import StringHarvest.Proofs.Catalog.Insertion
import StringHarvest.Proofs.Path.Segments
import StringHarvest.Proofs.Script.WrittenText

/-!
# From literals in a script to the catalog

A script that holds one call of `tr`, with comment lines above it and with string literals joined by
`+` as its argument, gives back exactly the texts that were written, whatever characters they hold.

The stages are kept apart: the tokens of the text (`Script.lexes_call`), their reading
(`Script.moduleItems_call`), the lines of the text and the place of the call in it (this module),
and the message of the call (this module).

**Main theorem** (`ofSource_writtenScript`): the script is read, and its catalog is empty if all
texts are empty, and otherwise holds one message with the joined texts and the trimmed comments.
-/

namespace StringHarvest

/-! ## Lines and places -/

namespace Text

/-- Blanks at the end are trimmed away. -/
theorem trimEnd_append_of_isBlank (cs : List Char) {blanks : List Char}
    (h : ∀ c ∈ blanks, isBlank c = true) : trimEnd (cs ++ blanks) = trimEnd cs := by
  have hdrop : blanks.reverse.dropWhile isBlank = [] := by
    rw [List.dropWhile_eq_nil_iff]
    exact fun c hc => h c (List.mem_reverse.mp hc)
  rw [trimEnd, List.reverse_append, List.dropWhile_append, hdrop]
  rfl

/-- White space that has been cut off at the end makes no difference to a cut at both ends. -/
theorem trim_trimEnd (cs : List Char) : trim (trimEnd cs) = trim cs := by
  have hblank : ∀ c ∈ cs.rtakeWhile isBlank, isBlank c = true := by
    intro c hc
    exact List.mem_takeWhile_imp (List.mem_reverse.mp hc)
  have hcs : trimEnd cs ++ cs.rtakeWhile isBlank = cs := List.rdropWhile_append_rtakeWhile
  conv_rhs => rw [← hcs]
  rw [trim, trim, List.dropWhile_append, List.dropWhile_eq_nil_iff.mpr hblank]
  split
  · next hempty => rw [List.isEmpty_iff.mp hempty]
  · rw [trimEnd_append_of_isBlank _ hblank]

/-- A character that is not blank stays in front of what is trimmed. -/
theorem trimEnd_cons {c : Char} (h : isBlank c = false) (cs : List Char) :
    trimEnd (c :: cs) = c :: trimEnd cs := by
  have hc : ([c]).dropWhile isBlank = [c] := by simp [h]
  rw [trimEnd, trimEnd, List.reverse_cons, List.dropWhile_append, hc]
  split
  · next hempty => rw [List.isEmpty_iff.mp hempty]; rfl
  · rw [List.reverse_append]; rfl

/-- The first line ends at the first mark. -/
theorem splitAt_line {mark : Char} {line : List Char} (h : mark ∉ line) (rest : List Char) :
    splitAt mark (line ++ mark :: rest) = line :: splitAt mark rest := by
  rw [splitAt_eq_splitOn, splitAt_eq_splitOn, List.splitOn, List.splitOnP_append_cons _ _ (by simp)]
  rw [← List.splitOn, List.splitOn_eq_singleton h]
  rfl

/-- A text without the mark is a single line. -/
theorem splitAt_eq_singleton {mark : Char} {line : List Char} (h : mark ∉ line) :
    splitAt mark line = [line] := by
  rw [splitAt_eq_splitOn, List.splitOn_eq_singleton h]

/-- Behind a line feed a new line starts. -/
theorem locateFrom_line {cs : List Char} (h : ∀ c ∈ cs, c ≠ '\n' ∧ c ≠ '\r')
    (line column n : Nat) (rest : List Char) :
    locateFrom line column (cs.length + 1 + n) (cs ++ '\n' :: rest) =
      locateFrom (line + 1) 1 n rest := by
  induction cs generalizing column with
  | nil =>
      rw [List.length_nil, Nat.zero_add, Nat.add_comm 1 n, List.nil_append, locateFrom]
  | cons c cs ih =>
      obtain ⟨hn, hr⟩ := h c List.mem_cons_self
      have hlength : (c :: cs).length + 1 + n = (cs.length + 1 + n) + 1 := by
        rw [List.length_cons]
        omega
      rw [hlength, List.cons_append, locateFrom, ih fun d hd => h d (List.mem_cons_of_mem _ hd)]
      · exact hn
      · exact hr

end Text

/-! ## Comment lines -/

section comments

open Script (commentLine marked isLineBreak)

/-- The first comment is the first line, the other ones follow. -/
theorem flatMap_commentLine_cons (comment : String) (comments : List String) (rest : List Char) :
    (comment :: comments).flatMap commentLine ++ rest =
      marked comment ++ '\n' :: (comments.flatMap commentLine ++ rest) := by
  simp [commentLine]

/-- A marked comment has no line breaks if the comment has none. -/
theorem ne_of_mem_marked {comment : String} (h : ∀ c ∈ comment.toList, isLineBreak c = false) :
    ∀ c ∈ marked comment, c ≠ '\n' ∧ c ≠ '\r' := by
  intro c hc
  have hbreak : isLineBreak c = false := by
    simp only [marked, List.mem_cons] at hc
    rcases hc with rfl | rfl | rfl | hc
    · decide
    · decide
    · decide
    · exact h c hc
  constructor
  · rintro rfl
    exact absurd hbreak (by decide)
  · rintro rfl
    exact absurd hbreak (by decide)

variable {comments : List String}
  (h : ∀ comment ∈ comments, ∀ c ∈ comment.toList, isLineBreak c = false)

include h

/-- What stands below comment lines is on the line behind them. -/
theorem line_locateFrom_comments (line column : Nat) (rest : List Char) :
    (Text.locateFrom line column (comments.flatMap commentLine).length
      (comments.flatMap commentLine ++ rest)).line = line + comments.length := by
  induction comments generalizing line column with
  | nil =>
      unfold Text.locateFrom
      rfl
  | cons comment comments ih =>
      have hlength : ((comment :: comments).flatMap commentLine).length =
          (marked comment).length + 1 + (comments.flatMap commentLine).length := by
        rw [List.flatMap_cons, commentLine, List.length_append, List.length_append,
          List.length_singleton]
      rw [hlength, flatMap_commentLine_cons,
        Text.locateFrom_line (ne_of_mem_marked (h comment List.mem_cons_self)),
        ih fun d hd => h d (List.mem_cons_of_mem _ hd), List.length_cons]
      omega

/-- The lines of a text below comment lines. -/
theorem splitAt_comments {rest : List Char} (hrest : '\n' ∉ rest) :
    Text.splitAt '\n' (comments.flatMap commentLine ++ rest) = comments.map marked ++ [rest] := by
  induction comments with
  | nil => exact Text.splitAt_eq_singleton hrest
  | cons comment comments ih =>
      have hline : '\n' ∉ marked comment := fun hmem =>
        (ne_of_mem_marked (h comment List.mem_cons_self) _ hmem).1 rfl
      rw [flatMap_commentLine_cons, Text.splitAt_line hline,
        ih fun d hd => h d (List.mem_cons_of_mem _ hd)]
      rfl

end comments

/-- The line of a comment, as the lines of a source are kept. -/
def trimmedComment (comment : String) : String := String.ofList (Text.trim (Script.marked comment))

/-- The text of a comment is read back from its line, trimmed. -/
theorem commentText?_trimmedComment (comment : String) :
    commentText? (trimmedComment comment) = some (Text.trimString comment) := by
  have hslash : Text.isBlank '/' = false := by decide
  have htrim : Text.trim (Script.marked comment) =
      '/' :: '/' :: '/' :: Text.trimEnd comment.toList := by
    rw [Text.trim, Script.marked, List.dropWhile_cons_of_neg (by simp [hslash]),
      Text.trimEnd_cons hslash, Text.trimEnd_cons hslash, Text.trimEnd_cons hslash]
  rw [trimmedComment, htrim, commentText?, String.toList_ofList]
  simp only [Text.trim_trimEnd, Text.trimString]

/-- If the lines of a text start with comments, then these are the comment above the line behind
them. -/
theorem commentTexts_append (comments rest : List String) (n : Nat) (hn : n ≤ comments.length) :
    commentTexts (comments.map trimmedComment ++ rest) n =
      (comments.map Text.trimString).take n := by
  induction n with
  | zero => rw [commentTexts, List.take_zero]
  | succ n ih =>
      have hlt : n < comments.length := hn
      rw [commentTexts, ih (by omega), Source.line?, List.getElem?_append_left (by simpa using hlt),
        List.getElem?_map, List.getElem?_eq_getElem hlt, Option.map_some, Option.bind_some,
        commentText?_trimmedComment, List.take_succ_eq_append_getElem (by simpa using hlt),
        List.getElem_map]

/-! ## The message of the call -/

namespace Node

/-- The text of a sum of literals is that of its left operand with the other texts behind it. -/
theorem constantText_foldl_plus (locate : Nat → Location) (texts : List String)
    (left : Script.Expr) :
    (ofExpr locate (texts.foldl Script.plus left)).constantText.value =
      (ofExpr locate left).constantText.value ++ String.join texts := by
  induction texts generalizing left with
  | nil => simp
  | cons text texts ih =>
      rw [List.foldl_cons, ih]
      simp [Script.plus, ofExpr, ofBinary, logicalOperators, constantText, literalOf,
        String.append_assoc]

/-- The only message call of a script that is one call of `tr`. -/
theorem messageCalls_callOf (locate : Nat → Location) (start : Nat) (first : String)
    (texts : List String) :
    (ofProgram locate ⟨[.statement (.expression (Script.callOf start first texts))]⟩).messageCalls
        ["tr"] = [⟨[ofExpr locate (Script.sumOf first texts)], some (locate start)⟩] := by
  have hname : isMessageFunction ["tr"] "tr" = true := by decide
  simp [messageCalls, ofProgram, ofItems, ofStmt, Script.callOf, ofExpr, ofElements, listing,
    findings, findings?, findingsBody, findingsAll, visit, dottedName, hname]

end Node

namespace Call

/-- The message of the call, given the line it stands on. -/
theorem message?_sumOf (comments : List String) (locate : Nat → Location) (location : Location)
    (last first : String) (texts : List String) (hline : location.line = comments.length + 1) :
    (message? (comments.map trimmedComment ++ [last])
      ⟨[Node.ofExpr locate (Script.sumOf first texts)], some location⟩).value =
      if String.join (first :: texts) = "" then none
      else some
        { singular := String.join (first :: texts)
          comment := "\n".intercalate (comments.map Text.trimString) } := by
  have hsingular : (Node.ofExpr locate (Script.sumOf first texts)).constantText.value =
      String.join (first :: texts) := by
    rw [Script.sumOf, Node.constantText_foldl_plus, String.join_cons]
    rfl
  have habove : commentTexts (comments.map trimmedComment ++ [last]) (location.line - 1) =
      comments.map Text.trimString := by
    rw [hline, Nat.add_sub_cancel, commentTexts_append _ _ _ le_rfl,
      List.take_of_length_le (by simp)]
  have hcomment : joinComments (commentAbove? (comments.map trimmedComment ++ [last]) location.line)
      "" = "\n".intercalate (comments.map Text.trimString) := by
    rw [commentAbove?, habove]
    cases comments <;> rfl
  simp only [message?, pluralAndOptions, Traced.value_bind, Traced.value_pure, hsingular,
    Option.bind_some]
  by_cases hempty : String.join (first :: texts) = ""
  · rw [if_pos hempty, hempty]
    rfl
  · rw [if_neg hempty, if_neg (by simpa using hempty)]
    exact congrArg (fun comment : String =>
      some { singular := String.join (first :: texts), comment : Message }) hcomment

end Call

namespace Catalog

/-- The script with comment lines above a call of `tr`, whose argument joins texts by `+`. -/
def writtenScript (comments texts : List String) : String :=
  String.join (comments.map fun comment => "///" ++ comment ++ "\n") ++ "tr(" ++
    " + ".intercalate (texts.map fun text => String.ofList (Script.quoted text)) ++ ");"

/-- The lines of the comments, character by character. -/
theorem toList_comments (comments : List String) :
    (String.join (comments.map fun comment => "///" ++ comment ++ "\n")).toList =
      comments.flatMap Script.commentLine := by
  induction comments with
  | nil => rfl
  | cons comment comments ih => simp [String.join_cons, ih, Script.commentLine, Script.marked]

/-- The literals with plus signs between them, character by character. -/
theorem toList_literals (first : String) (texts : List String) :
    (" + ".intercalate ((first :: texts).map fun text =>
        String.ofList (Script.quoted text))).toList =
      Script.quoted first ++ texts.flatMap fun text => [' ', '+', ' '] ++ Script.quoted text := by
  induction texts generalizing first with
  | nil => simp
  | cons text texts ih =>
      have htail := ih text
      rw [List.map_cons] at htail
      rw [List.map_cons, List.map_cons, String.intercalate_cons_cons, String.toList_append, htail,
        String.toList_append, String.toList_ofList, List.flatMap_cons, List.append_assoc,
        List.append_assoc]
      rfl

/-- The whole script, character by character: comments first, then the call. -/
theorem toList_writtenScript (comments : List String) (first : String) (texts : List String) :
    (writtenScript comments (first :: texts)).toList =
      comments.flatMap Script.commentLine ++ Script.writtenCall first texts := by
  rw [writtenScript, String.toList_append, String.toList_append, String.toList_append,
    toList_comments, toList_literals, Script.writtenCall, List.append_assoc, List.append_assoc,
    ← List.append_assoc "tr(".toList]
  rfl

/-- A literal has no line feed, whatever its text. -/
theorem lineFeed_notMem_quoted (text : String) : '\n' ∉ Script.quoted text := by
  simp only [Script.quoted, List.mem_cons, List.mem_append, List.mem_flatMap, List.not_mem_nil,
    or_false, not_or, not_exists, not_and]
  refine ⟨⟨by decide, fun c _ => ?_⟩, by decide⟩
  unfold Script.escaped
  split_ifs with hslash hquote hn hr
  · decide
  · decide
  · decide
  · decide
  · rw [List.mem_singleton]
    exact Ne.symm hn

/-- So has the whole call: it stands on one line. -/
theorem lineFeed_notMem_writtenCall (first : String) (texts : List String) :
    '\n' ∉ Script.writtenCall first texts := by
  have hplus : '\n' ∉ [' ', '+', ' '] := by decide
  simp only [Script.writtenCall, List.mem_append, List.mem_flatMap, not_or, not_exists, not_and]
  exact ⟨⟨by decide, lineFeed_notMem_quoted first,
    fun text _ => ⟨hplus, lineFeed_notMem_quoted text⟩⟩, by decide⟩

section writtenScript

variable {comments : List String}
  (hcomments : ∀ comment ∈ comments, ∀ c ∈ comment.toList, Script.isLineBreak c = false)

include hcomments

/-- **The reading of the script**: one call behind the comment lines. -/
theorem parse_writtenScript (first : String) (texts : List String) (typescript jsx : Bool) :
    Script.Program.parse typescript jsx (writtenScript comments (first :: texts)).toList =
      .ok ⟨[.statement (.expression
        (Script.callOf (comments.flatMap Script.commentLine).length first texts))]⟩ := by
  rw [toList_writtenScript]
  set text := comments.flatMap Script.commentLine ++ Script.writtenCall first texts with htext
  obtain ⟨lineBreak, hscan⟩ :=
    Script.scan_comments hcomments 0 true (Script.writtenCall first texts)
  have hfirst : Script.State.first text = Script.State.scan 0 true text := by
    rw [htext]
    cases comments <;> rfl
  rw [← htext, ← hfirst, Nat.zero_add] at hscan
  have hspells :=
    Script.lexes_call first texts (comments.flatMap Script.commentLine).length lineBreak
  have hlength : texts.length < text.length := by
    rw [htext, List.length_append]
    exact Nat.lt_add_left _ (Script.length_lt_writtenCall first texts)
  have hdepth : Script.depthFor text.length = 8 * (text.length + 1) + 8 := by
    rw [Script.depthFor]
    omega
  obtain ⟨s, hrun⟩ := Script.moduleItems_call (n := 8 * (text.length + 1))
    (c := { typescript, jsx, bound := text.length + 2 }) first texts
      (by simpa using hlength) hspells
  rw [Script.start_writtenCall] at hrun
  simp only [Script.Program.parse, hscan, hdepth, hrun]

/-- The lines of the script are those of the comments and a last one. -/
theorem trimmedLines_writtenScript (first : String) (texts : List String) :
    ∃ last, Text.trimmedLines (writtenScript comments (first :: texts)) =
      comments.map trimmedComment ++ [last] := by
  refine ⟨String.ofList (Text.trim (Script.writtenCall first texts)), ?_⟩
  rw [Text.trimmedLines, toList_writtenScript,
    splitAt_comments hcomments (lineFeed_notMem_writtenCall first texts), List.map_append,
    List.map_map]
  rfl

/-- **The texts of a written script are found again**: the script is read, and its catalog holds one
message with the joined texts and the trimmed comments, or nothing if there is no text. -/
theorem ofSource_writtenScript {texts : List String} (htexts : texts ≠ []) (path : String) :
    ∃ source, Source.parse (writtenScript comments texts) path .javascript = .ok source ∧
      (ofSource ({} : Config).functionNames.toList source).messages =
        if String.join texts = "" then []
        else
          [{ singular := String.join texts
             comment := "\n".intercalate (comments.map Text.trimString) }] := by
  obtain ⟨first, rest, rfl⟩ := List.exists_cons_of_ne_nil htexts
  have hparse :=
    parse_writtenScript hcomments first rest false (Language.hasMarkup .javascript path)
  obtain ⟨last, hlines⟩ := trimmedLines_writtenScript hcomments first rest
  have hline : (Text.locate (writtenScript comments (first :: rest)).toList
      (comments.flatMap Script.commentLine).length).line = comments.length + 1 := by
    rw [toList_writtenScript, Text.locate, line_locateFrom_comments hcomments, Nat.add_comm]
  have hsource : Source.parse (writtenScript comments (first :: rest)) path .javascript = .ok
      { program := Node.ofProgram (Text.locate (writtenScript comments (first :: rest)).toList)
          ⟨[.statement (.expression
            (Script.callOf (comments.flatMap Script.commentLine).length first rest))]⟩
        lines := comments.map trimmedComment ++ [last] } := by
    simp only [Source.parse, Language.hasTypes, hparse, hlines]
  have hnames : ({} : Config).functionNames.toList = ["tr"] := rfl
  refine ⟨_, hsource, ?_⟩
  rw [hnames, ofSource, insertNode, messagesOf, Node.messageCalls_callOf, List.filterMap_cons,
    Call.message?_sumOf _ _ _ _ _ _ hline]
  split_ifs with hempty
  · rfl
  · rfl

end writtenScript

/-- Quotes, backslashes, line ends and white space of all kinds come back as they were written. -/
theorem ofSource_writtenScript_special :
    ∃ source, Source.parse (writtenScript [" for \"x\" ", "/"] ["a\n\\", "\"\u2028é"]) "a.js"
        .javascript = .ok source ∧
      (ofSource ({} : Config).functionNames.toList source).messages =
        [{ singular := "a\n\\\"\u2028é", comment := "for \"x\"\n/" }] :=
  ofSource_writtenScript (by simp [Script.isLineBreak]) (by decide) "a.js"

end Catalog

end StringHarvest
