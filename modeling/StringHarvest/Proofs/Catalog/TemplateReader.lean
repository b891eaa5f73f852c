import Mathlib.Algebra.Order.BigOperators.Group.List
import Mathlib.Algebra.Order.Ring.Nat
import StringHarvest.Proofs.Catalog.TemplateText
import StringHarvest.Proofs.Path.Segments

/-!
# Reading a template back

`Template.read` reads the format that templates are written in: comment lines and blank lines
are passed, and each field is one line, a keyword and one text between quotes, in which a
backslash starts an escape of two characters (`\\`, `\"` or `\n`). Of a message it finds
singular, plural and translation.

A template escapes the quotes of its texts only. So the reader does not accept every template
(`read_render_backslash`).

**Main theorem** (`read_render_iff`): the reader accepts a template and finds exactly the
messages of its catalog, in order, if and only if no singular, plural or translation
holds a backslash or a line feed.

That such templates are read back is a matter of following the reader. That no others are is shown
by measuring. A line that has been read as a text is longer than the field of that text in a
template, by one for each of its backslashes and line feeds (`length_of_readField`). So the lines
that are read take the room of all blocks and more (`room_of_readMessages`); but they are lines of
the blocks, which have no more room than that (`room_flatMap_fieldLines_le`).
-/

namespace StringHarvest.Template

/-! ### The reader -/

/-- The text between quotes whose opening one has been passed; the closing one must end the line. -/
def unquote : List Char → Option (List Char)
  | [] => none
  | '"' :: rest => if rest.isEmpty then some [] else none
  | '\\' :: '\\' :: rest => (unquote rest).map ('\\' :: ·)
  | '\\' :: '"' :: rest => (unquote rest).map ('"' :: ·)
  | '\\' :: 'n' :: rest => (unquote rest).map ('\n' :: ·)
  | '\\' :: _ => none
  | c :: rest => (unquote rest).map (c :: ·)

/-- The text of a field with the given keyword. -/
def readField (keyword : String) (line : List Char) : Option String := do
  let rest ← line.dropPrefix? (keyword.toList ++ [' ', '"'])
  let text ← unquote rest
  return String.ofList text

/-- The messages whose fields are the given lines. -/
def readMessages : List (List Char) → Option (List Message)
  | first :: second :: rest => do
    let singular ← readField "msgid" first
    match readField "msgstr" second with
    | some message => return { singular, message } :: (← readMessages rest)
    | none =>
      match rest with
      | third :: rest =>
        let plural ← readField "msgid_plural" second
        let message ← readField "msgstr[0]" third
        return { singular, plural, message } :: (← readMessages rest)
      | [] => none
  | [_] => none
  | [] => some []

/-- Whether a line is a comment or blank. -/
def isPassed (line : List Char) : Bool := line.head? == some '#' || line.all Text.isBlank

/-- The lines of a text that are read. -/
def significant (text : List Char) : List (List Char) :=
  (Text.splitAt '\n' text).filter fun line => !isPassed line

/-- The messages of a template, without context and comment. -/
def read (text : String) : Option (List Message) := readMessages (significant text.toList)

/-! ### One field -/

/-- The characters that a reader wants escaped and a template does not escape. -/
def isRaw (c : Char) : Bool := c == '\\' || c == '\n'

/-- How many characters of a text are such. -/
def rawCount (text : String) : Nat := text.toList.countP isRaw

/-- A field of a template without the end of its line. -/
def fieldLine (keyword text : String) : List Char :=
  keyword.toList ++ [' ', '"'] ++ (escapeQuotes text.toList ++ ['"'])

/-- A text has nothing raw in it if it has no backslash and no line feed. -/
theorem rawCount_eq_zero_iff {text : String} :
    rawCount text = 0 ↔ '\\' ∉ text.toList ∧ '\n' ∉ text.toList := by
  unfold rawCount isRaw
  rw [List.countP_eq_zero]
  constructor
  · intro h
    exact ⟨fun hmem => h _ hmem rfl, fun hmem => h _ hmem rfl⟩
  · rintro ⟨hslash, hline⟩ c hc
    have hc1 : c ≠ '\\' := fun heq => hslash (heq ▸ hc)
    have hc2 : c ≠ '\n' := fun heq => hline (heq ▸ hc)
    simp [hc1, hc2]

/-- The length of a line is that of its keyword, its text with the quotes escaped, and three more.
-/
theorem length_fieldLine (keyword text : String) :
    (fieldLine keyword text).length =
      keyword.toList.length + 3 + (escapeQuotes text.toList).length := by
  simp only [fieldLine, List.length_append, List.length_cons, List.length_nil]
  omega

/-- Up to the closing quote, a text without backslashes is read back. -/
theorem unquote_closed {cs : List Char} (hslash : '\\' ∉ cs) :
    unquote (escapeQuotes cs ++ ['"']) = some cs := by
  induction cs with
  | nil => rfl
  | cons c cs ih =>
      rw [List.mem_cons, not_or] at hslash
      have ih := ih hslash.2
      by_cases hc : c = '"'
      · subst hc
        simp [unquote, ih]
      · rw [escapeQuotes_cons_of_ne hc, List.cons_append, unquote, ih]
        · rfl
        all_goals simp_all [Ne.symm hslash.1]

/-- What is read from a line has a written form of the length of that line. -/
theorem length_of_unquote {t cs : List Char} (hline : '\n' ∉ t) (h : unquote t = some cs) :
    t.length = (escapeQuotes cs).length + cs.countP isRaw + 1 := by
  fun_induction unquote t generalizing cs with
  | case1 => cases h
  | case2 rest hrest => simp_all
  | case3 rest hrest => cases h
  | case4 rest ih | case5 rest ih | case6 rest ih =>
      -- an escape of two characters
      obtain ⟨ds, hds, rfl⟩ := Option.map_eq_some_iff.mp h
      have hlength := ih (by simp_all) hds
      simp [escapeQuotes_cons_of_ne, isRaw, hlength]
      omega
  | case7 => cases h
  | case8 c rest hquote _ _ _ hslash ih =>
      obtain ⟨ds, hds, rfl⟩ := Option.map_eq_some_iff.mp h
      rw [List.mem_cons, not_or] at hline
      have hc : isRaw c = false := by simp_all [isRaw, Ne.symm hline.1]
      rw [escapeQuotes_cons_of_ne hquote, List.countP_cons_of_neg (by simp [hc]), List.length_cons,
        List.length_cons, ih hline.2 hds]
      omega

/-- So is the text of a field, from its line. -/
theorem readField_fieldLine {keyword text : String} (h : rawCount text = 0) :
    readField keyword (fieldLine keyword text) = some text := by
  have hrest : (fieldLine keyword text).dropPrefix? (keyword.toList ++ [' ', '"']) =
      some (escapeQuotes text.toList ++ ['"']) :=
    List.dropPrefix?_eq_some_iff.mpr ⟨_, rfl, beq_self_eq_true _⟩
  unfold readField
  rw [hrest]
  simp [unquote_closed (rawCount_eq_zero_iff.mp h).1]

/-- A plural is not taken for a translation. -/
theorem readField_msgstr_plural (text : String) :
    readField "msgstr" (fieldLine "msgid_plural" text) = none := by
  unfold readField fieldLine
  rfl

/-- **What a text costs**: a line from which it is read is longer than its field in a template by
the characters that are not escaped there. -/
theorem length_of_readField {keyword text : String} {line : List Char} (hline : '\n' ∉ line)
    (h : readField keyword line = some text) :
    line.length = (fieldLine keyword text).length + rawCount text := by
  unfold readField at h
  simp only [Option.bind_eq_bind, Option.bind_eq_some_iff, Option.pure_def, Option.some.injEq] at h
  obtain ⟨rest, hrest, cs, hcs, rfl⟩ := h
  obtain ⟨start, rfl, hstart⟩ := List.dropPrefix?_eq_some_iff.mp hrest
  rw [List.mem_append, not_or] at hline
  have hlength := length_of_unquote hline.2 hcs
  rw [eq_of_beq hstart, length_fieldLine, rawCount, String.toList_ofList]
  simp only [List.length_append, List.length_cons, List.length_nil, hlength]
  omega

/-! ### Lines -/

/-- Lines are significant on their own. -/
theorem significant_append_line (a b : List Char) :
    significant (a ++ '\n' :: b) = significant a ++ significant b := by
  unfold significant
  rw [Text.splitAt_eq_splitOn, Text.splitAt_eq_splitOn, Text.splitAt_eq_splitOn,
    ← List.filter_append]
  congr 1
  exact List.splitOnP_append_cons a b (by simp)

/-- The empty text has no significant lines. -/
theorem significant_nil : significant [] = [] := by decide

/-- An empty line is passed. -/
theorem significant_line (cs : List Char) : significant ('\n' :: cs) = significant cs := by
  have h := significant_append_line [] cs
  rwa [significant_nil] at h

/-- A line that is not passed over is significant. -/
theorem significant_of_not_isPassed {line : List Char} (hline : '\n' ∉ line)
    (h : isPassed line = false) : significant line = [line] := by
  unfold significant
  rw [Text.splitAt_eq_splitOn, List.splitOn_eq_singleton hline, List.filter_singleton, h]
  rfl

/-- A comment is not. -/
theorem significant_comment {cs : List Char} (h : '\n' ∉ cs) : significant ('#' :: cs) = [] := by
  unfold significant
  rw [Text.splitAt_eq_splitOn, List.splitOn_eq_singleton (by simp [h])]
  rfl

/-- A significant line has no line feed in it. -/
theorem notMem_of_mem_significant {cs line : List Char} (h : line ∈ significant cs) :
    '\n' ∉ line := by
  unfold significant at h
  rw [Text.splitAt_eq_splitOn] at h
  exact Path.notMem_of_mem_splitOn (List.mem_filter.mp h).1

/-- The room that lines take, with their ends. -/
def room (lines : List (List Char)) : Nat := (lines.map fun line => line.length + 1).sum

/-- No lines take no room. -/
@[simp] theorem room_nil : room [] = 0 := rfl

/-- A line takes its length and one more. -/
@[simp] theorem room_cons (line : List Char) (lines : List (List Char)) :
    room (line :: lines) = line.length + 1 + room lines := by
  simp [room]

/-- Room is added up. -/
theorem room_append (lines lines' : List (List Char)) :
    room (lines ++ lines') = room lines + room lines' := by
  simp [room]

/-- The lines of a text take the room of the text and one more. -/
theorem room_splitAt (cs : List Char) : room (Text.splitAt '\n' cs) = cs.length + 1 := by
  induction cs with
  | nil => rfl
  | cons c cs ih =>
      unfold Text.splitAt
      split
      · rw [room_cons, ih, List.length_cons, List.length_nil]
        omega
      · rcases hsplit : Text.splitAt '\n' cs with _ | ⟨piece, pieces⟩
        · rw [hsplit, room_nil] at ih
          omega
        · rw [hsplit, room_cons] at ih
          dsimp only
          rw [room_cons, List.length_cons, List.length_cons]
          omega

/-- The lines that are read take no more room than the text. -/
theorem room_significant_le (cs : List Char) : room (significant cs) ≤ cs.length + 1 := by
  rw [← room_splitAt]
  exact (List.filter_sublist.map _).sum_le_sum (by simp)

/-- Significant lines take no more room than all lines. -/
theorem room_flatMap_significant_le (lines : List (List Char)) :
    room (lines.flatMap significant) ≤ room lines := by
  induction lines with
  | nil => exact le_rfl
  | cons line lines ih =>
      rw [List.flatMap_cons, room_append, room_cons]
      exact Nat.add_le_add (room_significant_le line) ih

/-! ### Blocks and templates -/

/-- The fields of the block of a message. They are its lines as far as their texts hold no line
feeds. -/
def fieldLines (m : Message) : List (List Char) :=
  fieldLine "msgid" m.singular ::
    if m.hasPlural then [fieldLine "msgid_plural" m.plural, fieldLine "msgstr[0]" m.message]
    else [fieldLine "msgstr" m.message]

/-- A block is its lines, each with a line feed behind it. -/
theorem toList_block (m : Message) : (block m).toList = (fieldLines m).flatMap (· ++ ['\n']) := by
  unfold block fieldLines fieldLine quote
  split
  · simp
  · simp

/-- The significant lines of lines with line feeds are those of each. -/
theorem significant_flatMap_append (lines : List (List Char)) (rest : List Char) :
    significant (lines.flatMap (· ++ ['\n']) ++ rest) =
      lines.flatMap significant ++ significant rest := by
  induction lines with
  | nil => rfl
  | cons line lines ih =>
      simp only [List.flatMap_cons, List.append_assoc, List.singleton_append]
      rw [List.cons_append, significant_append_line, ih]

/-- The significant lines of the body are those of each message. -/
theorem significant_body (messages : List Message) :
    significant (body messages) =
      messages.flatMap fun m => (fieldLines m).flatMap significant := by
  induction messages with
  | nil => exact significant_nil
  | cons m rest ih =>
      rw [body_cons, toList_block, significant_flatMap_append, List.flatMap_cons]
      congr 1
      rcases rest with _ | ⟨m', rest⟩
      · exact significant_nil
      · rw [behindBlock, significant_line, ih]

/-- The first line of a template without the mark of a comment. -/
def headerText (generatedAt : String) : List Char :=
  " Generated by ".toList ++ programName.toList ++ " on ".toList ++ generatedAt.toList

/-- The header is a comment and an empty line. -/
theorem toList_header (generatedAt : String) :
    (header generatedAt).toList = '#' :: headerText generatedAt ++ '\n' :: ['\n'] := by
  unfold header headerText
  simp only [String.toList_append]
  rfl

/-- The header is one line if the time has no line feed. -/
theorem lineFeed_notMem_headerText {generatedAt : String} (h : '\n' ∉ generatedAt.toList) :
    '\n' ∉ headerText generatedAt := by
  unfold headerText
  rw [List.mem_append, List.mem_append, List.mem_append, not_or, not_or, not_or]
  exact ⟨⟨⟨by decide, by decide⟩, by decide⟩, h⟩

/-- The lines of a template that are read are lines of its fields. -/
theorem significant_render (catalog : Catalog) {generatedAt : String}
    (h : '\n' ∉ generatedAt.toList) :
    significant (render catalog generatedAt).toList =
      catalog.messages.flatMap fun m => (fieldLines m).flatMap significant := by
  have hheader := lineFeed_notMem_headerText h
  rw [toList_render, toList_header, List.append_assoc]
  change significant (_ ++ '\n' :: ('\n' :: body catalog.messages)) = _
  rw [significant_append_line, significant_comment hheader, List.nil_append, significant_line,
    significant_body]

/-- How many characters of the texts of a message a reader wants escaped and a template does not
escape. -/
def rawOf (m : Message) : Nat := rawCount m.singular + rawCount m.plural + rawCount m.message

/-- A message has nothing raw in it if none of its texts has. -/
theorem rawOf_eq_zero_iff {m : Message} :
    rawOf m = 0 ↔ rawCount m.singular = 0 ∧ rawCount m.plural = 0 ∧ rawCount m.message = 0 := by
  unfold rawOf
  omega

/-- The significant lines of messages take no more room than all their lines. -/
theorem room_flatMap_fieldLines_le (messages : List Message) :
    room (messages.flatMap fun m => (fieldLines m).flatMap significant) ≤
      (messages.map fun m => room (fieldLines m)).sum := by
  induction messages with
  | nil => exact le_rfl
  | cons m messages ih =>
      rw [List.flatMap_cons, room_append, List.map_cons, List.sum_cons]
      exact Nat.add_le_add (room_flatMap_significant_le _) ih

/-! ### Templates that are read back -/

/-- The keywords of the fields. -/
def keywords : List String := ["msgid", "msgid_plural", "msgstr", "msgstr[0]"]

/-- Every keyword starts with a letter and has no line feed. -/
theorem letters_of_mem_keywords :
    ∀ keyword ∈ keywords, keyword.toList.head? = some 'm' ∧ '\n' ∉ keyword.toList := by
  decide

/-- To escape quotes adds no line feed and loses none. -/
theorem mem_escapeQuotes {cs : List Char} : '\n' ∈ escapeQuotes cs ↔ '\n' ∈ cs := by
  induction cs with
  | nil => rfl
  | cons c cs ih =>
      by_cases hc : c = '"'
      · simp [hc, ih]
      · simp [escapeQuotes_cons_of_ne hc, ih]

/-- The line of a field with nothing raw in it is significant. -/
theorem significant_fieldLine {keyword text : String} (hkeyword : keyword ∈ keywords)
    (h : rawCount text = 0) : significant (fieldLine keyword text) = [fieldLine keyword text] := by
  obtain ⟨hhead, hline⟩ := letters_of_mem_keywords keyword hkeyword
  apply significant_of_not_isPassed
  · simp [fieldLine, hline, mem_escapeQuotes, (rawCount_eq_zero_iff.mp h).2]
  · obtain ⟨rest, hrest⟩ := List.head?_eq_some_iff.mp hhead
    unfold isPassed fieldLine
    rw [hrest]
    rfl

/-- So are all lines of a message with nothing raw in it. -/
theorem flatMap_significant_fieldLines {m : Message} (h : rawOf m = 0) :
    (fieldLines m).flatMap significant = fieldLines m := by
  obtain ⟨hsingular, hplural, hmessage⟩ := rawOf_eq_zero_iff.mp h
  unfold fieldLines
  rw [List.flatMap_cons, significant_fieldLine (by decide) hsingular]
  split
  · simp only [List.flatMap_cons, List.flatMap_nil]
    rw [significant_fieldLine (by decide) hplural, significant_fieldLine (by decide) hmessage]
    rfl
  · simp only [List.flatMap_cons, List.flatMap_nil]
    rw [significant_fieldLine (by decide) hmessage]
    rfl

/-- The messages are read back from their lines if they have nothing raw in them. -/
theorem readMessages_fieldLines {messages : List Message} (h : ∀ m ∈ messages, rawOf m = 0) :
    readMessages (messages.flatMap fieldLines) =
      some (messages.map fun m =>
        { singular := m.singular, plural := m.plural, message := m.message }) := by
  induction messages with
  | nil => rfl
  | cons m messages ih =>
      have ih := ih fun x hx => h x (List.mem_cons_of_mem m hx)
      obtain ⟨hsingular, hplural, hmessage⟩ := rawOf_eq_zero_iff.mp (h m List.mem_cons_self)
      rw [List.flatMap_cons, fieldLines]
      split
      · simp [readMessages, readField_fieldLine, hsingular, hplural, hmessage,
          readField_msgstr_plural, ih]
      · rename_i hm
        have hnone : m.plural = "" := by simpa [Message.hasPlural] using hm
        simp [readMessages, readField_fieldLine, hsingular, hmessage, hnone, ih]

/-! ### Templates that are not read back -/

/-- The lines from which messages are read: those of the first message, with or without a plural,
and those of the others. -/
theorem readMessages_eq_cons {lines : List (List Char)} {m : Message} {messages : List Message}
    (h : readMessages lines = some (m :: messages)) :
    ∃ first second rest, readField "msgid" first = some m.singular ∧
      ((lines = first :: second :: rest ∧ m.plural = "" ∧
          readField "msgstr" second = some m.message ∧ readMessages rest = some messages) ∨
        ∃ third, lines = first :: second :: third :: rest ∧
          readField "msgid_plural" second = some m.plural ∧
          readField "msgstr[0]" third = some m.message ∧ readMessages rest = some messages) := by
  unfold readMessages at h
  split at h
  · rename_i first second rest
    simp only [Option.bind_eq_bind, Option.bind_eq_some_iff] at h
    obtain ⟨singular, hsingular, h⟩ := h
    split at h
    · rename_i message hmessage
      simp only [Option.bind_eq_some_iff, Option.pure_def, Option.some.injEq] at h
      obtain ⟨found, hfound, heq⟩ := h
      obtain ⟨rfl, rfl⟩ := List.cons.inj heq
      exact ⟨first, second, rest, hsingular, .inl ⟨rfl, rfl, hmessage, hfound⟩⟩
    · split at h
      · rename_i third rest
        simp only [Option.bind_eq_some_iff, Option.pure_def, Option.some.injEq] at h
        obtain ⟨plural, hplural, message, hmessage, found, hfound, heq⟩ := h
        obtain ⟨rfl, rfl⟩ := List.cons.inj heq
        exact ⟨first, second, rest, hsingular, .inr ⟨third, rfl, hplural, hmessage, hfound⟩⟩
      · cases h
  · cases h
  · cases h

/-- A message without a plural has two lines. -/
theorem fieldLines_of_plural_eq_empty {m : Message} (h : m.plural = "") :
    fieldLines m = [fieldLine "msgid" m.singular, fieldLine "msgstr" m.message] := by
  simp [fieldLines, Message.hasPlural, h]

/-- The fields with a plural take the most room. -/
theorem room_fieldLines_le (m : Message) :
    room (fieldLines m) ≤
      room [fieldLine "msgid" m.singular, fieldLine "msgid_plural" m.plural,
        fieldLine "msgstr[0]" m.message] := by
  unfold fieldLines
  split
  · exact le_rfl
  · simp [length_fieldLine]
    omega

/-- **What messages cost**: the lines from which they are read have room for their fields in a
template and for one character more for each that is not escaped there. -/
theorem room_of_readMessages {lines : List (List Char)} {messages : List Message}
    (hlines : ∀ line ∈ lines, '\n' ∉ line) (h : readMessages lines = some messages) :
    (messages.map fun m => room (fieldLines m) + rawOf m).sum ≤ room lines := by
  induction messages generalizing lines with
  | nil => exact Nat.zero_le _
  | cons m messages ih =>
      obtain ⟨first, second, rest, hsingular, hrest⟩ := readMessages_eq_cons h
      rw [List.map_cons, List.sum_cons]
      rcases hrest with ⟨rfl, hplural, hmessage, hrest⟩ | ⟨third, rfl, hplural, hmessage, hrest⟩
      · have hfirst := length_of_readField (hlines _ (by simp)) hsingular
        have hsecond := length_of_readField (hlines _ (by simp)) hmessage
        have htail := ih (fun line hline => hlines line (by simp [hline])) hrest
        have hraw : rawOf m = rawCount m.singular + rawCount m.message := by
          rw [rawOf, hplural]
          rfl
        rw [fieldLines_of_plural_eq_empty hplural, hraw]
        simp only [room_cons, room_nil]
        omega
      · have hfirst := length_of_readField (hlines _ (by simp)) hsingular
        have hsecond := length_of_readField (hlines _ (by simp)) hplural
        have hthird := length_of_readField (hlines _ (by simp)) hmessage
        have htail := ih (fun line hline => hlines line (by simp [hline])) hrest
        have hroom := room_fieldLines_le m
        simp only [room_cons, room_nil, rawOf] at *
        omega

/-- **Which templates are read back**: those of catalogs in which no singular, plural or translation
holds a backslash or a line feed. -/
theorem read_render_iff (catalog : Catalog) {generatedAt : String}
    (h : '\n' ∉ generatedAt.toList) :
    read (render catalog generatedAt) =
        some (catalog.messages.map fun m =>
          { singular := m.singular, plural := m.plural, message := m.message }) ↔
      ∀ m ∈ catalog.messages, ∀ text ∈ [m.singular, m.plural, m.message],
        '\\' ∉ text.toList ∧ '\n' ∉ text.toList := by
  have hplain (m : Message) : (∀ text ∈ [m.singular, m.plural, m.message],
      '\\' ∉ text.toList ∧ '\n' ∉ text.toList) ↔ rawOf m = 0 := by
    simp [rawOf_eq_zero_iff, rawCount_eq_zero_iff]
  simp only [hplain]
  unfold read
  constructor
  · intro hread
    have hroom := room_of_readMessages (fun _ => notMem_of_mem_significant) hread
    rw [significant_render catalog h, List.map_map] at hroom
    have hle : (catalog.messages.map fun m => room (fieldLines m) + rawOf m).sum ≤
        (catalog.messages.map fun m => room (fieldLines m)).sum :=
      hroom.trans (room_flatMap_fieldLines_le catalog.messages)
    rw [List.sum_map_add] at hle
    have hzero : (catalog.messages.map rawOf).sum = 0 := by omega
    intro m hm
    exact List.sum_eq_zero_iff.mp hzero _ (List.mem_map_of_mem hm)
  · intro hraw
    rw [significant_render catalog h, ← readMessages_fieldLines hraw]
    congr 1
    exact List.flatMap_congr fun m hm => flatMap_significant_fieldLines (hraw m hm)

/-- A template with quotes and a plural. -/
theorem read_render_iff_quotes :
    let c : Catalog :=
      ⟨[{ singular := "Say \"hi\"", plural := "#\"\"", comment := "lost" }, { singular := "" }]⟩
    '\n' ∉ "2026-01-01".toList ∧
      read (render c "2026-01-01") =
        some [{ singular := "Say \"hi\"", plural := "#\"\"" }, { singular := "" }] :=
  ⟨by decide, (read_render_iff _ (by decide)).mpr (by decide)⟩

/-- A singular that ends in a backslash takes the closing quote for its own. -/
theorem read_render_backslash :
    '\n' ∉ "now".toList ∧ read (render ⟨[{ singular := "a\\" }]⟩ "now") = none := by
  decide +kernel

end StringHarvest.Template
