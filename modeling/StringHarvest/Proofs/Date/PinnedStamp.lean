import StringHarvest.Command.Run
import StringHarvest.Proofs.Catalog.TemplateReader
import StringHarvest.Proofs.Date.Calendar
import StringHarvest.Proofs.Text.Pieces

/-!
# Pinned stamps

A stamp is read back field by field (`Moment.read?`), and what is read is a moment of the calendar:
a date with its day of the week, and a time of that day. `Moment.IsAt` says by how many seconds it
lies behind the start of 1970, where the day is counted in the calendar and not computed.

**Main theorem** (`generationStamp_pinned`): a number of seconds can be pinned if its moment is
in one of the years from -262143 to 262142. Then the stamp of a run that it pins is read back as
the moment that lies that many seconds behind the start of 1970. So a template tells in its first
line which number has been pinned.

The text of a moment is read back in all years (`Moment.IsAt.read?_text`), since no field of it
holds one of the marks at which it is cut (`Moment.isFieldChar`).
-/

namespace StringHarvest.Date

/-! ### Numbers with zeros in front -/

/-- A text of digits is read as the number that they give. -/
theorem digits?_of_isDigit {cs : List Char} (hne : cs ≠ []) (h : ∀ c ∈ cs, c.isDigit = true) :
    digits? cs = some (Nat.ofDigitChars 10 cs 0) := by
  have hall : cs.all (fun c => '0' ≤ c && c ≤ '9') = true := by
    refine List.all_eq_true.mpr fun c hc => ?_
    simpa [Char.isDigit, Char.le_def] using h c hc
  unfold digits?
  rw [if_neg (by simp [hne, hall]), Nat.ofDigitChars_eq_foldl]
  exact congrArg some (List.foldl_ext _ _ _ fun n c _ => by rw [Nat.mul_comm]; rfl)

variable {width n : Nat}

/-- A padded number has digits only. -/
theorem isDigit_of_mem_padded {c : Char} (h : c ∈ (padded width n).toList) : c.isDigit = true := by
  rw [padded, String.toList_ofList, List.mem_append] at h
  rcases h with h | h
  · rw [List.eq_of_mem_replicate h]
    rfl
  · exact Nat.isDigit_of_mem_toDigits (by decide) (by decide) h

/-- A padded number is read back. -/
theorem digits?_padded : digits? (padded width n).toList = some n := by
  have hne : (padded width n).toList ≠ [] := by
    rw [padded, String.toList_ofList]
    exact List.append_ne_nil_of_right_ne_nil _ Nat.toDigits_ne_nil
  rw [digits?_of_isDigit hne fun c => isDigit_of_mem_padded, padded, String.toList_ofList,
    Nat.ofDigitChars_append, Nat.ofDigitChars_replicate_zero, Nat.mul_zero,
    Nat.ofDigitChars_ten_toDigits]

/-- A padded number is as wide as wanted, or wider. -/
theorem le_length_padded : width ≤ (padded width n).toList.length := by
  rw [padded, String.toList_ofList, List.length_append, List.length_replicate]
  omega

/-- It is just as wide if the number fits. -/
theorem length_padded (hwidth : 0 < width) (h : n < 10 ^ width) :
    (padded width n).toList.length = width := by
  have hle := (Nat.length_toDigits_le_iff (by decide) hwidth).mpr h
  rw [padded, String.toList_ofList, List.length_append, List.length_replicate]
  omega

/-! ### Moments -/

/-- A date with its day of the week, Sunday being 0, and a time of the day. -/
structure Moment where
  weekday : Nat
  date : Civil
  hour : Nat
  minute : Nat
  second : Nat
  deriving DecidableEq, Repr

namespace Moment

/-- **Where a moment is in time**: its date is that of a day of the calendar, its day of the week is
that of the same day, and it is so many seconds behind the start of 1970. -/
structure IsAt (moment : Moment) (n : Int) : Prop where
  day : ∃ days, IsDay days moment.date moment.weekday ∧
    n = days * 86400 + (moment.hour * 3600 + moment.minute * 60 + moment.second : Nat)
  hour_lt : moment.hour < 24
  minute_lt : moment.minute < 60
  second_lt : moment.second < 60

/-- A moment is only at one place in time. -/
theorem IsAt.unique {moment : Moment} {n n' : Int} (h : moment.IsAt n) (h' : moment.IsAt n') :
    n = n' := by
  obtain ⟨⟨days, hday, rfl⟩, -, -, -⟩ := h
  obtain ⟨⟨days', hday', rfl⟩, -, -, -⟩ := h'
  rw [← hday.toDays_eq.2.1, ← hday'.toDays_eq.2.1]

/-- The number that digits spell, of which there are so many. -/
def exactly? (width : Nat) (cs : List Char) : Option Nat :=
  if cs.length = width then digits? cs else none

/-- The number that digits spell, of which there are at least so many. -/
def atLeast? (width : Nat) (cs : List Char) : Option Nat :=
  if width ≤ cs.length then digits? cs else none

/-- The year that a text spells: four digits, or a sign and at least four digits. -/
def year? : List Char → Option Int
  | '-' :: digits => (atLeast? 4 digits).map fun (n : Nat) => -(n : Int)
  | '+' :: digits => (atLeast? 4 digits).map Int.ofNat
  | digits => (exactly? 4 digits).map Int.ofNat

/-- The hour, the minute and the second that a text of the form `00:00:00` spells. -/
def time? (cs : List Char) : Option (Nat × Nat × Nat) :=
  match Text.splitAt ':' cs with
  | [hour, minute, second] => do
    return (← exactly? 2 hour, ← exactly? 2 minute, ← exactly? 2 second)
  | _ => none

/-- The moment that a text of the form `Thu Jan 01 1970 00:00:00 GMT+0000` spells. -/
def read? (text : String) : Option Moment :=
  match Text.splitAt ' ' text.toList with
  | [weekday, month, day, year, time, zone] => do
    let weekday ← weekdayNames.idxOf? (String.ofList weekday)
    let month ← monthNames.idxOf? (String.ofList month)
    let day ← exactly? 2 day
    let year ← year? year
    let (hour, minute, second) ← time? time
    if zone = "GMT+0000".toList then some ⟨weekday, ⟨year, month + 1, day⟩, hour, minute, second⟩
    else none
  | _ => none

/-! ### Texts of moments -/

/-- The fields of the time of a moment. -/
def timeFields (moment : Moment) : List String :=
  [padded 2 moment.hour, padded 2 moment.minute, padded 2 moment.second]

/-- The fields of the text of a moment. -/
def fields (moment : Moment) : List String :=
  [weekdayNames.getD moment.weekday "", monthNames.getD (moment.date.month - 1) "",
    padded 2 moment.date.day, yearText moment.date.year, ":".intercalate moment.timeFields,
    "GMT+0000"]

/-- The text of a moment. -/
def text (moment : Moment) : String := " ".intercalate moment.fields

/-- So it is read back with its width. -/
theorem exactly?_padded (hwidth : 0 < width) (h : n < 10 ^ width) :
    exactly? width (padded width n).toList = some n := by
  rw [exactly?, if_pos (length_padded hwidth h), digits?_padded]

/-- It is always read back with at least its width. -/
theorem atLeast?_padded : atLeast? width (padded width n).toList = some n := by
  rw [atLeast?, if_pos le_length_padded, digits?_padded]

/-- Digits have no sign in front. -/
theorem year?_padded (h : n < 10000) : year? (padded 4 n).toList = some (n : Int) := by
  unfold year?
  split
  · rename_i digits heq
    have hsign := isDigit_of_mem_padded (heq ▸ List.mem_cons_self)
    cases hsign
  · rename_i digits heq
    have hsign := isDigit_of_mem_padded (heq ▸ List.mem_cons_self)
    cases hsign
  · rw [exactly?_padded (by decide) h]
    rfl

/-- A year is read back, with its sign. -/
theorem year?_yearText (year : Int) : year? (yearText year).toList = some year := by
  unfold yearText
  split
  · have hminus : ("-" ++ padded 4 year.natAbs).toList = '-' :: (padded 4 year.natAbs).toList := by
      simp
    have hvalue : -(year.natAbs : Int) = year := by omega
    rw [hminus, year?, atLeast?_padded, Option.map_some, hvalue]
  · split
    · have hplus : ("+" ++ padded 4 year.natAbs).toList = '+' :: (padded 4 year.natAbs).toList := by
        simp
      rw [hplus, year?, atLeast?_padded, Option.map_some]
      exact congrArg some (Int.natAbs_of_nonneg (by omega))
    · rw [year?_padded (by omega)]
      exact congrArg some (Int.natAbs_of_nonneg (by omega))

/-- The text of a year has digits and a sign only. -/
theorem isDigit_or_of_mem_yearText {year : Int} {c : Char} (h : c ∈ (yearText year).toList) :
    c.isDigit = true ∨ c = '-' ∨ c = '+' := by
  unfold yearText at h
  split at h
  · rw [String.toList_append, List.mem_append] at h
    rcases h with h | h
    · exact .inr (.inl (List.mem_singleton.mp h))
    · exact .inl (isDigit_of_mem_padded h)
  · split at h
    · rw [String.toList_append, List.mem_append] at h
      rcases h with h | h
      · exact .inr (.inr (List.mem_singleton.mp h))
      · exact .inl (isDigit_of_mem_padded h)
    · exact .inl (isDigit_of_mem_padded h)

/-- What stands in the fields of a moment: neither a blank nor a line feed. -/
def isFieldChar (c : Char) : Bool := c.isAlphanum || c == '-' || c == '+' || c == ':'

/-- The fields of a time have no colon. -/
theorem colon_notMem_timeFields (moment : Moment) :
    ∀ field ∈ moment.timeFields, ':' ∉ field.toList := by
  intro field hfield hmem
  simp only [timeFields, List.mem_cons, List.not_mem_nil, or_false] at hfield
  have hdigit : ':'.isDigit = true := by
    rcases hfield with rfl | rfl | rfl <;> exact isDigit_of_mem_padded hmem
  cases hdigit

/-- So a time is split into its fields again. -/
theorem splitAt_time (moment : Moment) :
    Text.splitAt ':' (":".intercalate moment.timeFields).toList =
      moment.timeFields.map String.toList :=
  Text.splitAt_intercalate rfl (List.cons_ne_nil _ _) moment.colon_notMem_timeFields

/-- A digit may stand in a field. -/
theorem isFieldChar_of_isDigit {c : Char} (h : c.isDigit = true) : isFieldChar c = true := by
  simp [isFieldChar, Char.isAlphanum, h]

/-- So may every character of a time. -/
theorem isFieldChar_of_mem_time {moment : Moment} {c : Char}
    (h : c ∈ (":".intercalate moment.timeFields).toList) : isFieldChar c = true := by
  by_cases hc : c = ':'
  · rw [hc]
    rfl
  · obtain ⟨piece, hpiece, hmem⟩ := Text.exists_mem_splitAt hc h
    rw [splitAt_time] at hpiece
    simp only [timeFields, List.map_cons, List.map_nil, List.mem_cons, List.not_mem_nil,
      or_false] at hpiece
    rcases hpiece with rfl | rfl | rfl <;> exact isFieldChar_of_isDigit (isDigit_of_mem_padded hmem)

/-- A name by its number is one of the names, or empty. -/
theorem getD_mem_cons (names : List String) (i : Nat) : names.getD i "" ∈ "" :: names := by
  rw [List.getD_eq_getElem?_getD]
  rcases hname : names[i]? with _ | name
  · exact List.mem_cons_self
  · exact List.mem_cons_of_mem _ (List.mem_of_getElem? hname)

/-- The fields of a moment have field characters only. -/
theorem isFieldChar_of_mem_fields {moment : Moment} {field : String}
    (hfield : field ∈ moment.fields) {c : Char} (h : c ∈ field.toList) : isFieldChar c = true := by
  have hweekdays : ∀ name ∈ "" :: weekdayNames, name.toList.all isFieldChar = true := by decide
  have hmonths : ∀ name ∈ "" :: monthNames, name.toList.all isFieldChar = true := by decide
  simp only [fields, List.mem_cons, List.not_mem_nil, or_false] at hfield
  rcases hfield with rfl | rfl | rfl | rfl | rfl | rfl
  · exact List.all_eq_true.mp (hweekdays _ (getD_mem_cons _ _)) c h
  · exact List.all_eq_true.mp (hmonths _ (getD_mem_cons _ _)) c h
  · exact isFieldChar_of_isDigit (isDigit_of_mem_padded h)
  · rcases isDigit_or_of_mem_yearText h with h | rfl | rfl
    · exact isFieldChar_of_isDigit h
    · rfl
    · rfl
  · exact isFieldChar_of_mem_time h
  · exact List.all_eq_true.mp (show "GMT+0000".toList.all isFieldChar = true by decide) c h

/-- So the text of a moment is split into its fields again. -/
theorem splitAt_text (moment : Moment) :
    Text.splitAt ' ' moment.text.toList = moment.fields.map String.toList := by
  refine Text.splitAt_intercalate rfl (List.cons_ne_nil _ _) fun field hfield hblank => ?_
  cases isFieldChar_of_mem_fields hfield hblank

/-- The text of a moment has no line feed. -/
theorem lineFeed_notMem_text (moment : Moment) : '\n' ∉ moment.text.toList := by
  intro hmem
  obtain ⟨piece, hpiece, hmem⟩ := Text.exists_mem_splitAt (show '\n' ≠ ' ' by decide) hmem
  rw [splitAt_text] at hpiece
  obtain ⟨field, hfield, rfl⟩ := List.mem_map.mp hpiece
  cases isFieldChar_of_mem_fields hfield hmem

/-- A number below 100 is read back with two digits. -/
theorem exactly?_two (h : n < 100) : exactly? 2 (padded 2 n).toList = some n :=
  exactly?_padded (by decide) h

/-- The time of day is read back. -/
theorem IsAt.time?_eq {moment : Moment} {n : Int} (h : moment.IsAt n) :
    time? (":".intercalate moment.timeFields).toList =
      some (moment.hour, moment.minute, moment.second) := by
  obtain ⟨-, hhour, hminute, hsecond⟩ := h
  unfold time?
  rw [splitAt_time]
  simp only [timeFields, List.map_cons, List.map_nil]
  rw [exactly?_two (by omega), exactly?_two (by omega), exactly?_two (by omega)]
  rfl

/-- **The text of a moment is read back.** -/
theorem IsAt.read?_text {moment : Moment} {n : Int} (h : moment.IsAt n) :
    read? moment.text = some moment := by
  obtain ⟨days, hday, -⟩ := h.day
  obtain ⟨⟨hpos, hle, -, hlength⟩, -, hnumber⟩ := hday.toDays_eq
  have hweekday : weekdayNames.idxOf? (weekdayNames.getD moment.weekday "") =
      some moment.weekday := by
    have hindex : ∀ i < 7, weekdayNames.idxOf? (weekdayNames.getD i "") = some i := by decide
    exact hindex _ (hnumber ▸ weekday_lt days)
  have hmonth : monthNames.idxOf? (monthNames.getD (moment.date.month - 1) "") =
      some (moment.date.month - 1) := by
    have hindex : ∀ i < 12, monthNames.idxOf? (monthNames.getD i "") = some i := by decide
    exact hindex _ (by omega)
  have hday : exactly? 2 (padded 2 moment.date.day).toList = some moment.date.day :=
    exactly?_two ((hlength.trans (monthLength_le _ _)).trans_lt (by decide))
  unfold read?
  rw [splitAt_text]
  simp only [fields, List.map_cons, List.map_nil]
  rw [String.ofList_toList, String.ofList_toList, hweekday, hmonth, hday, year?_yearText,
    h.time?_eq]
  simp only [Option.bind_eq_bind, Option.bind_some, if_true, Nat.sub_add_cancel hpos]

/-! ### Moments of numbers -/

/-- The moment that lies so many seconds behind the start of 1970. -/
def ofSeconds (n : Int) : Moment where
  weekday := Date.weekday (n.fdiv daySeconds)
  date := ofDays (n.fdiv daySeconds)
  hour := (n.fmod daySeconds).toNat / 3600
  minute := (n.fmod daySeconds).toNat / 60 % 60
  second := (n.fmod daySeconds).toNat % 60

/-- The moment of a number of seconds is at that number. -/
theorem isAt_ofSeconds (n : Int) : (ofSeconds n).IsAt n := by
  have hmodulo : n = n.fdiv daySeconds * 86400 + ((n.fmod daySeconds).toNat : Nat) ∧
      (n.fmod daySeconds).toNat < 86400 := by
    rw [Int.fdiv_eq_ediv_of_nonneg _ (by decide), Int.fmod_eq_emod_of_nonneg _ (by decide)]
    unfold daySeconds
    omega
  refine ⟨⟨_, isDay_ofDays _, ?_⟩, ?_, Nat.mod_lt _ (by decide), Nat.mod_lt _ (by decide)⟩
  · simp only [ofSeconds]
    omega
  · simp only [ofSeconds]
    omega

/-- A stamp is the text of its moment. -/
theorem stamp_eq_text (n : Int) : stamp n = (ofSeconds n).text := by
  apply String.toList_inj.mp
  simp [stamp, clockText, text, fields, timeFields, ofSeconds]

/-- The stamp of a number is read back as its moment. -/
theorem exists_read?_stamp (n : Int) : ∃ moment, read? (stamp n) = some moment ∧ moment.IsAt n := by
  rw [stamp_eq_text]
  exact ⟨_, (isAt_ofSeconds n).read?_text, isAt_ofSeconds n⟩

end Moment

/-- Different seconds have different stamps. -/
theorem stamp_inj {n n' : Int} (h : stamp n = stamp n') : n = n' := by
  obtain ⟨moment, hread, hat⟩ := Moment.exists_read?_stamp n
  obtain ⟨moment', hread', hat'⟩ := Moment.exists_read?_stamp n'
  rw [h, hread'] at hread
  obtain rfl := Option.some.inj hread
  exact hat.unique hat'

/-! ### Numbers that can be pinned -/

/-- Whether a number of seconds can be pinned: its moment is in one of the years that dates
have, from -262143 to 262142. -/
def IsPinnable (n : Int) : Prop :=
  ∃ moment : Moment, moment.IsAt n ∧ -262143 ≤ moment.date.year ∧ moment.date.year ≤ 262142

/-- The seconds that can be pinned are a range. -/
theorem isPinnable_iff {n : Int} : IsPinnable n ↔ earliest ≤ n ∧ n ≤ latest := by
  have hbounds : ∀ moment : Moment, moment.IsAt n →
      (-262143 ≤ moment.date.year ∧ moment.date.year ≤ 262142 ↔ earliest ≤ n ∧ n ≤ latest) := by
    rintro moment ⟨⟨days, hday, hn⟩, hhour, hminute, hsecond⟩
    obtain ⟨hdate, hdays, -⟩ := hday.toDays_eq
    have hfirst := hdate.toDays_newYear_le_iff (-262143)
    have hbehind := hdate.toDays_newYear_le_iff 262143
    rw [hdays] at hfirst hbehind
    unfold earliest latest daySeconds
    omega
  -- A number has a moment in any case, so the years and the bounds are two ways to tell the same.
  constructor
  · rintro ⟨moment, hat, hyears⟩
    exact (hbounds moment hat).mp hyears
  · intro h
    exact ⟨_, Moment.isAt_ofSeconds n, (hbounds _ (Moment.isAt_ofSeconds n)).mpr h⟩

/-- A text that spells a number that can be pinned pins its stamp. -/
theorem generationStamp_eq {text : String} {n : Int}
    (hread : integer? (Text.trim text.toList) = some n) (h : IsPinnable n) (now : String) :
    Command.generationStamp (some text) now = stamp n := by
  obtain ⟨hearliest, hlatest⟩ := isPinnable_iff.mp h
  have hpinned : pinned? text = some (stamp n) := by
    rw [pinned?, hread, Option.bind_some, if_pos (by simp [hearliest, hlatest])]
  rw [Command.generationStamp, Option.bind_some, hpinned, Option.getD_some]

/-! ### Texts of whole numbers -/

/-- The digits of a number are read back. -/
theorem digits?_toDigits (n : Nat) : digits? (Nat.toDigits 10 n) = some n := by
  rw [digits?_of_isDigit Nat.toDigits_ne_nil
      fun c => Nat.isDigit_of_mem_toDigits (by decide) (by decide),
    Nat.ofDigitChars_ten_toDigits]

/-- A number is written in digits, with a sign before those of a negative one. -/
theorem toList_toString (n : Int) :
    (toString n).toList = (if n < 0 then ['-'] else []) ++ Nat.toDigits 10 n.natAbs := by
  have hrepr : ∀ m : Nat, m.repr.toList = Nat.toDigits 10 m := fun m => String.toList_ofList
  rw [Int.toString_eq_repr, Int.repr_eq_if]
  split
  · rename_i hsign
    rw [hrepr, if_neg (by omega), List.nil_append, ← Int.toNat_of_nonneg hsign, Int.natAbs_natCast,
      Int.toNat_natCast]
  · rename_i hsign
    rw [String.toList_append, hrepr, if_pos (by omega), show (-n).toNat = n.natAbs by omega]
    rfl

/-- A whole number of 64 bits is read from what is written. -/
theorem integer?_toString {n : Int} (hlow : -9223372036854775808 ≤ n)
    (hhigh : n ≤ 9223372036854775807) : integer? (toString n).toList = some n := by
  have hrange : Option.filter (fun n : Int => -9223372036854775808 ≤ n && n ≤ 9223372036854775807)
      (some n) = some n := by
    rw [Option.filter_some, if_pos (by simp [hlow, hhigh])]
  rw [toList_toString]
  split
  · have hvalue : -(n.natAbs : Int) = n := by omega
    change Option.filter _ (Option.map _ (digits? (Nat.toDigits 10 n.natAbs) >>= _)) = _
    rw [digits?_toDigits]
    change Option.filter _ (some (-(n.natAbs : Int))) = _
    rwa [hvalue]
  · have hvalue : (n.natAbs : Int) = n := by omega
    rw [List.nil_append]
    unfold integer?
    split
    · rename_i rest heq
      cases Nat.isDigit_of_mem_toDigits (by decide) (by decide) (heq ▸ List.mem_cons_self)
    · rename_i rest heq
      cases Nat.isDigit_of_mem_toDigits (by decide) (by decide) (heq ▸ List.mem_cons_self)
    · rw [digits?_toDigits]
      change Option.filter _ (some (n.natAbs : Int)) = _
      rwa [hvalue]

/-- A digit is not blank. -/
theorem isBlank_of_isDigit {c : Char} (h : c.isDigit = true) : Text.isBlank c = false := by
  rw [Char.isDigit_iff_toNat] at h
  have hlow : 48 ≤ c.toNat := h.1
  have hhigh : c.toNat ≤ 57 := h.2
  simp only [Text.isBlank, Bool.or_eq_false_iff, Bool.and_eq_false_iff, decide_eq_false_iff_not,
    beq_eq_false_iff_ne]
  omega

/-- White space around a text that has none is trimmed. -/
theorem trim_append {before core after : List Char} (hne : core ≠ [])
    (hbefore : ∀ c ∈ before, Text.isBlank c = true) (hcore : ∀ c ∈ core, Text.isBlank c = false)
    (hafter : ∀ c ∈ after, Text.isBlank c = true) : Text.trim (before ++ core ++ after) = core := by
  have hstay : ∀ cs rest : List Char, cs ≠ [] → (∀ c ∈ cs, Text.isBlank c = false) →
      (cs ++ rest).dropWhile Text.isBlank = cs ++ rest := by
    intro cs rest hne hcs
    obtain ⟨c, cs, rfl⟩ := List.exists_cons_of_ne_nil hne
    exact List.dropWhile_cons_of_neg (by simp [hcs c List.mem_cons_self])
  have hend := hstay core.reverse [] (by simpa using hne) (by simpa using hcore)
  rw [List.append_nil] at hend
  rw [Text.trim, List.append_assoc, List.dropWhile_append_of_pos hbefore,
    hstay core after hne hcore, Text.trimEnd, List.reverse_append,
    List.dropWhile_append_of_pos (by simpa using hafter), hend, List.reverse_reverse]

/-- A whole number is read also with white space around it. -/
theorem integer?_trim_toString {before after : String}
    (hbefore : ∀ c ∈ before.toList, Text.isBlank c = true)
    (hafter : ∀ c ∈ after.toList, Text.isBlank c = true) {n : Int}
    (hlow : -9223372036854775808 ≤ n) (hhigh : n ≤ 9223372036854775807) :
    integer? (Text.trim (before ++ toString n ++ after).toList) = some n := by
  have hnumber : (toString n).toList ≠ [] ∧ ∀ c ∈ (toString n).toList, Text.isBlank c = false := by
    rw [toList_toString]
    refine ⟨List.append_ne_nil_of_right_ne_nil _ Nat.toDigits_ne_nil, fun c hc => ?_⟩
    rcases List.mem_append.mp hc with hc | hc
    · split at hc
      · rw [List.mem_singleton.mp hc]
        rfl
      · cases hc
    · exact isBlank_of_isDigit (Nat.isDigit_of_mem_toDigits (by decide) (by decide) hc)
  rw [String.toList_append, String.toList_append, trim_append hnumber.1 hbefore hnumber.2 hafter,
    integer?_toString hlow hhigh]

/-- What can be pinned fits into 64 bits. -/
theorem IsPinnable.bounds {n : Int} (h : IsPinnable n) :
    -9223372036854775808 ≤ n ∧ n ≤ 9223372036854775807 := by
  obtain ⟨hearliest, hlatest⟩ := isPinnable_iff.mp h
  have hlow : -9223372036854775808 ≤ earliest := by decide
  have hhigh : latest ≤ 9223372036854775807 := by decide
  exact ⟨hlow.trans hearliest, hlatest.trans hhigh⟩

/-! ### The first line of a template -/

/-- A stamp has no line feed. -/
theorem lineFeed_notMem_stamp (n : Int) : '\n' ∉ (stamp n).toList := by
  rw [Moment.stamp_eq_text]
  exact Moment.lineFeed_notMem_text _

/-- The first line ends with the stamp. -/
theorem head?_splitAt_render (catalog : Catalog) (n : Int) :
    (Text.splitAt '\n' (Template.render catalog (stamp n)).toList).head? =
      some ('#' :: Template.headerText (stamp n)) := by
  have hline : '\n' ∉ '#' :: Template.headerText (stamp n) := by
    rw [List.mem_cons, not_or]
    exact ⟨by decide, Template.lineFeed_notMem_headerText (lineFeed_notMem_stamp n)⟩
  rw [Template.toList_render, Template.toList_header, List.append_assoc,
    Text.splitAt_append_of_notMem hline, List.cons_append, Text.splitAt_cons_self,
    List.modifyHead_cons, List.append_nil, List.head?_cons]

/-- **Pinned stamps are exact.** Every number of seconds that can be pinned is pinned by its
digits, with white space around them or not. Whatever text spells the number, the stamp of a run
that it pins is of the form `Thu Jan 01 1970 00:00:00 GMT+0000`, and what is read from it is the
moment that lies exactly so many seconds behind the start of 1970, with the day of the week of its
date. So templates for which different numbers have been pinned differ in their first lines,
whatever their catalogs are. -/
theorem generationStamp_pinned (n : Int) (h : IsPinnable n) :
    (∀ before after : String, (∀ c ∈ (before ++ after).toList, Text.isBlank c = true) →
      integer? (Text.trim (before ++ toString n ++ after).toList) = some n) ∧
    ∀ text, integer? (Text.trim text.toList) = some n → ∀ now,
      (∃ moment, Moment.read? (Command.generationStamp (some text) now) = some moment ∧
        moment.IsAt n) ∧
      ∀ n' text' now', IsPinnable n' → integer? (Text.trim text'.toList) = some n' → n ≠ n' →
        ∀ catalog catalog',
          (Text.splitAt '\n'
            (Template.render catalog (Command.generationStamp (some text) now)).toList).head? ≠
          (Text.splitAt '\n'
            (Template.render catalog'
              (Command.generationStamp (some text') now')).toList).head? := by
  obtain ⟨hlow, hhigh⟩ := h.bounds
  refine ⟨fun before after hblank => ?_, fun text hread now => ⟨?_, ?_⟩⟩
  · rw [String.toList_append, List.forall_mem_append] at hblank
    exact integer?_trim_toString hblank.1 hblank.2 hlow hhigh
  · rw [generationStamp_eq hread h]
    exact Moment.exists_read?_stamp n
  · intro n' text' now' h' hread' hne catalog catalog' heq
    rw [generationStamp_eq hread h, generationStamp_eq hread' h', head?_splitAt_render,
      head?_splitAt_render] at heq
    have hstamps := List.append_cancel_left (List.cons.inj (Option.some.inj heq)).2
    exact hne (stamp_inj (String.toList_inj.mp hstamps))

/-- The first second of the year 10000, a Saturday, and the last of the year -1. -/
theorem generationStamp_pinned_fiveDigits :
    let later := Command.generationStamp (some " 253402300800\n") ""
    let earlier := Command.generationStamp (some "-62167219201") ""
    later = "Sat Jan 01 +10000 00:00:00 GMT+0000" ∧ earlier = "Fri Dec 31 -0001 23:59:59 GMT+0000" ∧
      Moment.read? later = some ⟨6, ⟨10000, 1, 1⟩, 0, 0, 0⟩ ∧
      Moment.IsAt ⟨6, ⟨10000, 1, 1⟩, 0, 0, 0⟩ 253402300800 ∧
      ∀ catalog, (Text.splitAt '\n' (Template.render catalog later).toList).head? ≠
        (Text.splitAt '\n' (Template.render catalog earlier).toList).head? := by
  intro later earlier
  have hpinnable : IsPinnable 253402300800 := isPinnable_iff.mpr (by decide)
  have hpinnable' : IsPinnable (-62167219201) := isPinnable_iff.mpr (by decide)
  obtain ⟨-, hpinned⟩ := generationStamp_pinned 253402300800 hpinnable
  obtain ⟨⟨moment, hread, hat⟩, hdiffer⟩ := hpinned " 253402300800\n" (by decide +kernel) ""
  have hmoment : Moment.read? later = some ⟨6, ⟨10000, 1, 1⟩, 0, 0, 0⟩ := by decide +kernel
  obtain rfl := Option.some.inj (hread.symm.trans hmoment)
  exact ⟨by decide +kernel, by decide +kernel, hmoment, hat, fun catalog =>
    hdiffer (-62167219201) "-62167219201" "" hpinnable' (by decide +kernel) (by decide)
      catalog catalog⟩

end StringHarvest.Date
