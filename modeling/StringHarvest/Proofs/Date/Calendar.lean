import Mathlib.Tactic.IntervalCases
import StringHarvest.Date.Civil

/-!
# The calendar, day by day

The Gregorian calendar in both directions of time, as it is told to a child: which months have how
many days, which years have a leap day, and which day follows which (`Civil.next`). `IsDay` counts
the days from 1 January 1970, a Thursday, forwards and backwards.

**Main facts.** The conversions between dates and day numbers are that count: `isDay_ofDays` says so
of every day number, and `IsDay.toDays_eq` that a date has only one.

The conversions count years from March. A year of that kind starts at `yearStart` and its months
start at multiples of 153 fifths of a day, whatever its length (`ofMarchDay`). The year of a day
within 400 years is found by an estimate, which is right because a day has a century, a block of
four years and a year within them (`EraDay`).
-/

namespace StringHarvest.Date

/-! ### Dates -/

/-- Whether a year has a leap day: every fourth year has, of the full
centuries only every fourth. -/
def isLeapYear (year : Int) : Bool := year % 4 == 0 && (year % 100 != 0 || year % 400 == 0)

/-- The number of days of a month. -/
def monthLength (year : Int) (month : Nat) : Nat :=
  match month with
  | 2 => if isLeapYear year then 29 else 28
  | 4 | 6 | 9 | 11 => 30
  | _ => 31

/-- The dates that there are. -/
structure Civil.IsDate (date : Civil) : Prop where
  month_pos : 1 ≤ date.month
  month_le : date.month ≤ 12
  day_pos : 1 ≤ date.day
  day_le : date.day ≤ monthLength date.year date.month

/-- The date of the day after. -/
def Civil.next (date : Civil) : Civil :=
  if date.day < monthLength date.year date.month then { date with day := date.day + 1 }
  else if date.month < 12 then ⟨date.year, date.month + 1, 1⟩
  else ⟨date.year + 1, 1, 1⟩

/-- **The calendar**: the number, the date and the day of the week of a day, Sunday being 0. The
days are counted one by one from a Thursday, the 1 January 1970, forwards and backwards. -/
inductive IsDay : Int → Civil → Nat → Prop
  | first : IsDay 0 ⟨1970, 1, 1⟩ 4
  | next {n : Int} {date : Civil} {weekday : Nat} (h : IsDay n date weekday) :
      IsDay (n + 1) date.next ((weekday + 1) % 7)
  | previous {n : Int} {date : Civil} {weekday : Nat} (hdate : date.IsDate) (hweekday : weekday < 7)
      (h : IsDay (n + 1) date.next ((weekday + 1) % 7)) : IsDay n date weekday

/-- The leap years of the calendar. -/
theorem isLeapYear_iff {year : Int} :
    isLeapYear year = true ↔ year % 4 = 0 ∧ (year % 100 ≠ 0 ∨ year % 400 = 0) := by
  simp [isLeapYear]

/-- A month has a day. -/
theorem monthLength_pos (year : Int) (month : Nat) : 1 ≤ monthLength year month := by
  unfold monthLength
  split <;> (try split) <;> decide

/-- A month has at most 31 days. -/
theorem monthLength_le (year : Int) (month : Nat) : monthLength year month ≤ 31 := by
  unfold monthLength
  split <;> (try split) <;> decide

/-- The day after a date is a date. -/
theorem Civil.IsDate.isDate_next {date : Civil} (h : date.IsDate) : date.next.IsDate := by
  obtain ⟨hpos, hle, hdaypos, hday⟩ := h
  unfold Civil.next
  split
  · rename_i hlt
    exact ⟨hpos, hle, Nat.succ_pos _, hlt⟩
  · split
    · rename_i hmonth
      exact ⟨Nat.succ_pos _, hmonth, le_rfl, monthLength_pos _ _⟩
    · exact ⟨le_rfl, Nat.succ_pos _, le_rfl, monthLength_pos _ _⟩

/-! ### Years that start in March -/

/-- The days from 1 March of the year 0 to 1 March of a year. -/
def yearStart (year : Int) : Int := 365 * year + year / 4 - year / 100 + year / 400

/-- The days from 1 March of a year to 1 March of the next. The leap day of
the next year is the last. -/
def yearLength (year : Int) : Nat := if isLeapYear (year + 1) then 366 else 365

/-- A year starts where the one before it ends. -/
theorem yearStart_succ (year : Int) : yearStart (year + 1) = yearStart year + yearLength year := by
  unfold yearStart yearLength
  split
  · rename_i hleap
    rw [isLeapYear_iff] at hleap
    omega
  · rename_i hleap
    rw [isLeapYear_iff] at hleap
    omega

/-- A later year starts after the end of an earlier one. -/
theorem yearStart_le_of_lt {year later : Int} (h : year < later) :
    yearStart year + yearLength year ≤ yearStart later := by
  rw [← yearStart_succ]
  unfold yearStart
  omega

/-- Later years start later. -/
theorem yearStart_mono {year later : Int} (h : year ≤ later) :
    yearStart year ≤ yearStart later := by
  unfold yearStart
  omega

/-- The year and the day in it are told by the number of the day. -/
theorem yearStart_add_inj {year other : Int} {day otherDay : Nat} (hday : day < yearLength year)
    (hother : otherDay < yearLength other) (h : yearStart year + day = yearStart other + otherDay) :
    year = other ∧ day = otherDay := by
  rcases lt_trichotomy year other with hlt | rfl | hlt
  · have hle := yearStart_le_of_lt hlt
    omega
  · exact ⟨rfl, by omega⟩
  · have hle := yearStart_le_of_lt hlt
    omega

/-! ### Months that are counted from March -/

/-- The days from 1 March to the start of a month, March being 0. -/
def monthStart (month : Nat) : Nat := (153 * month + 2) / 5

/-- The days from 1 March to the end of a month. Only the end of February is that of its year. -/
def monthEnd (year : Int) (month : Nat) : Nat :=
  if month < 11 then monthStart (month + 1) else yearLength year

/-- The date in a year that starts in March, with months and days counted from 0. -/
def ofMarch (year : Int) (month day : Nat) : Civil where
  year := if month < 10 then year else year + 1
  month := if month < 10 then month + 3 else month - 9
  day := day + 1

/-- A day that there is in a year that starts in March. -/
structure InYear (year : Int) (month day : Nat) : Prop where
  month_lt : month < 12
  day_lt : monthStart month + day < monthEnd year month

variable {year : Int} {month day : Nat}

/-- A year has at most 366 days. -/
theorem yearLength_le (year : Int) : yearLength year ≤ 366 := by
  unfold yearLength
  split <;> decide

/-- A year has at least 365 days. -/
theorem le_yearLength (year : Int) : 365 ≤ yearLength year := by
  unfold yearLength
  split <;> decide

/-- A month ends before the next one starts, and within its year. -/
theorem monthEnd_le (h : month < 12) (year : Int) :
    monthEnd year month ≤ monthStart (month + 1) ∧ monthEnd year month ≤ yearLength year := by
  have hlength := le_yearLength year
  have hle := yearLength_le year
  unfold monthEnd monthStart
  split <;> omega

/-- The length of a month is the distance of its ends. -/
theorem monthLength_ofMarch (h : month < 12) (year : Int) (day : Nat) :
    monthStart month + monthLength (ofMarch year month day).year (ofMarch year month day).month =
      monthEnd year month := by
  by_cases hfebruary : month = 11
  · subst hfebruary
    change 337 + (if isLeapYear (year + 1) then 29 else 28) =
      if isLeapYear (year + 1) then 366 else 365
    split <;> rfl
  · have hother : month < 11 := by omega
    interval_cases month <;> rfl

/-- A day within a month of the year that starts in March is a date. -/
theorem InYear.isDate (h : InYear year month day) : (ofMarch year month day).IsDate := by
  obtain ⟨hmonth, hday⟩ := h
  have hlength := monthLength_ofMarch hmonth year day
  refine ⟨?_, ?_, Nat.succ_pos _, ?_⟩
  · unfold ofMarch
    dsimp only
    split <;> omega
  · unfold ofMarch
    dsimp only
    split <;> omega
  · change day + 1 ≤ _
    omega

/-- **Every date** has a year that starts in March, a month and a day in it. -/
theorem Civil.IsDate.exists_inYear {date : Civil} (h : date.IsDate) :
    ∃ year month day, InYear year month day ∧ date = ofMarch year month day := by
  obtain ⟨hpos, hle, hdaypos, hday⟩ := h
  have hof : ∃ year month, month < 12 ∧ date = ofMarch year month (date.day - 1) := by
    obtain ⟨year, month, day⟩ := date
    dsimp only at hpos hle hdaypos ⊢
    by_cases hearly : month ≤ 2
    · refine ⟨year - 1, month + 9, by omega, ?_⟩
      unfold ofMarch
      rw [if_neg (by omega), if_neg (by omega)]
      simp only [Civil.mk.injEq]
      omega
    · refine ⟨year, month - 3, by omega, ?_⟩
      unfold ofMarch
      rw [if_pos (by omega), if_pos (by omega)]
      simp only [Civil.mk.injEq, true_and]
      omega
  obtain ⟨year, month, hmonth, hdate⟩ := hof
  refine ⟨year, month, date.day - 1, ⟨hmonth, ?_⟩, hdate⟩
  have hlength := monthLength_ofMarch hmonth year (date.day - 1)
  rw [← hdate] at hlength
  omega

/-! ### Day numbers of dates -/

/-- The number of a day is told by its year, its month and its day, counted from March. -/
theorem toDays_ofMarch (h : month < 12) (year : Int) (day : Nat) :
    toDays (ofMarch year month day) =
      yearStart year + (monthStart month + day : Nat) - epochOffset := by
  have hera : year.fdiv 400 * eraDays +
      ((365 * (year.fmod 400).toNat + (year.fmod 400).toNat / 4 -
        (year.fmod 400).toNat / 100 : Nat) : Int) = yearStart year := by
    rw [Int.fdiv_eq_ediv_of_nonneg _ (by decide), Int.fmod_eq_emod_of_nonneg _ (by decide)]
    unfold yearStart eraDays
    omega
  have hyear : (if (ofMarch year month day).month ≤ 2 then (ofMarch year month day).year - 1
      else (ofMarch year month day).year) = year := by
    unfold ofMarch
    dsimp only
    split <;> split <;> omega
  have hmonth : (if 2 < (ofMarch year month day).month then (ofMarch year month day).month - 3
      else (ofMarch year month day).month + 9) = month := by
    unfold ofMarch
    dsimp only
    split <;> split <;> omega
  unfold toDays
  dsimp only
  rw [hyear, hmonth, ← hera, Int.add_assoc, ← Nat.cast_add]
  rfl

/-- The first of January is the 307th day of a year that starts in March. -/
theorem toDays_newYear (year : Int) :
    toDays ⟨year, 1, 1⟩ = yearStart (year - 1) + 306 - epochOffset := by
  have hmarch : (⟨year, 1, 1⟩ : Civil) = ofMarch (year - 1) 10 0 := by simp [ofMarch]
  rw [hmarch, toDays_ofMarch (by decide)]
  rfl

/-- Behind the last day of a month the next month starts, and behind February the next year. -/
theorem next_ofMarch_of_last (h : month < 12)
    (hlast : monthStart month + (day + 1) = monthEnd year month) :
    (ofMarch year month day).next =
      if month = 11 then ofMarch (year + 1) 0 0 else ofMarch year (month + 1) 0 := by
  have hlength := monthLength_ofMarch h year day
  have hday : (ofMarch year month day).day = day + 1 := rfl
  unfold Civil.next
  rw [if_neg (by omega)]
  interval_cases month <;> rfl

/-- **The day after** has the next number. -/
theorem toDays_next {date : Civil} (h : date.IsDate) : toDays date.next = toDays date + 1 := by
  obtain ⟨year, month, day, ⟨hmonth, hday⟩, rfl⟩ := h.exists_inYear
  rw [toDays_ofMarch hmonth]
  by_cases hlast : monthStart month + (day + 1) = monthEnd year month
  · rw [next_ofMarch_of_last hmonth hlast]
    split
    · rename_i hfebruary
      subst hfebruary
      have hend : monthEnd year 11 = yearLength year := rfl
      have hstart : monthStart 0 = 0 := rfl
      rw [toDays_ofMarch (by decide), yearStart_succ]
      omega
    · have hend : monthEnd year month = monthStart (month + 1) := if_pos (by omega)
      rw [toDays_ofMarch (by omega)]
      omega
  · have hlength := monthLength_ofMarch hmonth year day
    have hnext : (ofMarch year month day).next = ofMarch year month (day + 1) :=
      if_pos (show day + 1 < _ by omega)
    rw [hnext, toDays_ofMarch hmonth]
    omega

/-- A number is that of one date only. -/
theorem toDays_inj {date other : Civil} (h : date.IsDate) (hother : other.IsDate)
    (heq : toDays date = toDays other) : date = other := by
  obtain ⟨year, month, day, ⟨hmonth, hday⟩, rfl⟩ := h.exists_inYear
  obtain ⟨year', month', day', ⟨hmonth', hday'⟩, rfl⟩ := hother.exists_inYear
  have hend := monthEnd_le hmonth year
  have hend' := monthEnd_le hmonth' year'
  rw [toDays_ofMarch hmonth, toDays_ofMarch hmonth'] at heq
  obtain ⟨rfl, hdays⟩ : year = year' ∧ monthStart month + day = monthStart month' + day' :=
    yearStart_add_inj (by omega) (by omega) (by omega)
  obtain rfl : month = month' := by
    unfold monthStart at *
    omega
  obtain rfl : day = day' := by omega
  rfl

/-- A date is between the first days of its year and of the next. -/
theorem Civil.IsDate.toDays_bounds {date : Civil} (h : date.IsDate) :
    toDays ⟨date.year, 1, 1⟩ ≤ toDays date ∧ toDays date < toDays ⟨date.year + 1, 1, 1⟩ := by
  obtain ⟨year, month, day, ⟨hmonth, hday⟩, rfl⟩ := h.exists_inYear
  obtain ⟨-, hend⟩ := monthEnd_le hmonth year
  rw [toDays_newYear, toDays_newYear, toDays_ofMarch hmonth]
  by_cases hearly : month < 10
  · have hyear : (ofMarch year month day).year = year := if_pos hearly
    have hbefore : monthStart month + day < 306 := by
      unfold monthEnd monthStart at *
      split at hday <;> omega
    have hstart := yearStart_succ (year - 1)
    have hlength := le_yearLength (year - 1)
    rw [hyear, Int.add_sub_cancel]
    rw [Int.sub_add_cancel] at hstart
    omega
  · have hyear : (ofMarch year month day).year = year + 1 := if_neg hearly
    have hbehind : 306 ≤ monthStart month + day := by
      unfold monthStart
      omega
    have hstart := yearStart_succ year
    rw [hyear, Int.add_sub_cancel, Int.add_sub_cancel]
    omega

/-- A date is not before the first day of a year exactly if its year is not before that year. -/
theorem Civil.IsDate.toDays_newYear_le_iff {date : Civil} (h : date.IsDate) (year : Int) :
    toDays ⟨year, 1, 1⟩ ≤ toDays date ↔ year ≤ date.year := by
  obtain ⟨hfrom, hto⟩ := h.toDays_bounds
  rw [toDays_newYear] at hfrom hto ⊢
  rw [Int.add_sub_cancel] at hto
  constructor
  · intro hle
    by_contra hlt
    have hstart := yearStart_mono (show date.year ≤ year - 1 by omega)
    omega
  · intro hle
    have hstart := yearStart_mono (show year - 1 ≤ date.year - 1 by omega)
    omega

/-! ### Dates of day numbers -/

/-- A day of 400 years has a century, a block of four years, a year and a rest. A year is longer
only at the end of a block, and the last block of a century only at the end of the last one. -/
structure EraDay (day century block year rest : Nat) : Prop where
  century_lt : century < 4
  block_lt : block < 25
  year_lt : year < 4
  rest_le : rest ≤ 365
  year_of_rest : rest = 365 → year = 3 ∧ (block < 24 ∨ century = 3)
  day_eq : day = 36524 * century + 1461 * block + 365 * year + rest

/-- Every day of an era has a century, a block of four years, a year and a rest. -/
theorem exists_eraDay {day : Nat} (h : day < 146097) :
    ∃ century block year rest, EraDay day century block year rest := by
  obtain ⟨century, hcentury⟩ : ∃ century, century = min 3 (day / 36524) := ⟨_, rfl⟩
  obtain ⟨inCentury, hinCentury⟩ : ∃ d, day = 36524 * century + d :=
    ⟨day - 36524 * century, by omega⟩
  obtain ⟨block, hblock⟩ : ∃ block, block = inCentury / 1461 := ⟨_, rfl⟩
  obtain ⟨inBlock, hinBlock⟩ : ∃ d, inCentury = 1461 * block + d :=
    ⟨inCentury - 1461 * block, by omega⟩
  obtain ⟨year, hyear⟩ : ∃ year, year = min 3 (inBlock / 365) := ⟨_, rfl⟩
  exact ⟨century, block, year, inBlock - 365 * year, by omega, by omega, by omega, by omega,
    by omega, by omega⟩

variable {century block rest : Nat} {index : Nat}

/-- **The estimate of the year is right.** It takes a block of four years as 1460 days, and
so it takes off as many days as there are blocks, or one more towards the end of a block,
where the rest allows for it. -/
theorem EraDay.yearOfEra_eq (h : EraDay day century block index rest) :
    yearOfEra day = 100 * century + 4 * block + index := by
  obtain ⟨hcentury, hblock, hyear, hrest, hleap, hday⟩ := h
  -- The last day is apart: it alone is counted to a fifth century.
  by_cases hlast : day = 146096
  · obtain ⟨rfl, rfl, rfl⟩ : century = 3 ∧ block = 24 ∧ index = 3 := by omega
    subst hlast
    decide
  · have hcenturies : day / 36524 = century := by omega
    have hera : day / 146096 = 0 := by omega
    have hblocks : day / 1460 = 25 * century + block ∧ rest ≤ 364 ∨
        day / 1460 = 25 * century + block + 1 ∧ 1 ≤ rest := by
      omega
    unfold yearOfEra
    rw [hcenturies, hera]
    omega

/-- The rest is a day of its year, which may be a leap day. -/
theorem EraDay.rest_lt (h : EraDay day century block index rest) (era : Int) :
    rest < yearLength ((100 * century + 4 * block + index : Nat) + era * 400) := by
  obtain ⟨hcentury, hblock, hyear, hrest, hleap, -⟩ := h
  unfold yearLength
  split
  · omega
  · rename_i hnot
    rw [isLeapYear_iff] at hnot
    by_contra hlast
    obtain ⟨rfl, hlong⟩ := hleap (by omega)
    omega

/-- A day of a year is in the month that 153 fifths of a day give. -/
theorem inYear_of_lt {rest : Nat} (h : rest < yearLength year) :
    InYear year ((5 * rest + 2) / 153) (rest - monthStart ((5 * rest + 2) / 153)) ∧
      monthStart ((5 * rest + 2) / 153) ≤ rest := by
  have hle := yearLength_le year
  have hstart : monthStart ((5 * rest + 2) / 153) ≤ rest := by
    unfold monthStart
    omega
  refine ⟨⟨by omega, ?_⟩, hstart⟩
  rw [Nat.add_sub_cancel' hstart]
  unfold monthEnd
  split
  · unfold monthStart
    omega
  · exact h

/-- **The date of a day number** is the date of a day of a year. -/
theorem exists_ofDays_eq (n : Int) :
    ∃ year month day, InYear year month day ∧ ofDays n = ofMarch year month day ∧
      n = yearStart year + (monthStart month + day : Nat) - epochOffset := by
  obtain ⟨era, hera⟩ : ∃ era, era = (n + epochOffset).fdiv eraDays := ⟨_, rfl⟩
  obtain ⟨day, hday⟩ : ∃ day, day = ((n + epochOffset).fmod eraDays).toNat := ⟨_, rfl⟩
  have hn : n + epochOffset = era * 146097 + day ∧ day < 146097 := by
    rw [Int.fdiv_eq_ediv_of_nonneg _ (by decide)] at hera
    rw [Int.fmod_eq_emod_of_nonneg _ (by decide)] at hday
    unfold eraDays at hera hday
    omega
  obtain ⟨century, block, index, rest, heraDay⟩ := exists_eraDay hn.2
  have hyear := heraDay.yearOfEra_eq
  have hrest := heraDay.rest_lt era
  obtain ⟨hinYear, hstart⟩ := inYear_of_lt hrest
  obtain ⟨hcentury, hblock, hindex, -, -, hdayEq⟩ := heraDay
  refine ⟨_, _, _, hinYear, ?_, ?_⟩
  · have hdayOfYear : day - (365 * yearOfEra day + yearOfEra day / 4 - yearOfEra day / 100) =
      rest := by
      have hfours : (100 * century + 4 * block + index) / 4 = 25 * century + block := by omega
      have hhundreds : (100 * century + 4 * block + index) / 100 = century := by omega
      rw [hyear, hfours, hhundreds]
      omega
    have hm := hinYear.month_lt
    unfold ofDays
    dsimp only
    rw [← hera, ← hday, hdayOfYear, hyear]
    refine congrArg (fun year => Civil.mk year _ _) ?_
    split <;> split <;> omega
  · rw [Nat.add_sub_cancel' hstart]
    unfold yearStart
    omega

/-- Every number of a day gives a date. -/
theorem isDate_ofDays (n : Int) : (ofDays n).IsDate := by
  obtain ⟨year, month, day, hinYear, heq, -⟩ := exists_ofDays_eq n
  rw [heq]
  exact hinYear.isDate

/-- And that date has the number. -/
theorem toDays_ofDays (n : Int) : toDays (ofDays n) = n := by
  obtain ⟨year, month, day, hinYear, heq, hn⟩ := exists_ofDays_eq n
  rw [heq, toDays_ofMarch hinYear.month_lt, ← hn]

/-- The date of the next number is that of the day after. -/
theorem ofDays_succ (n : Int) : ofDays (n + 1) = (ofDays n).next := by
  refine toDays_inj (isDate_ofDays _) (isDate_ofDays n).isDate_next ?_
  rw [toDays_next (isDate_ofDays n), toDays_ofDays, toDays_ofDays]

/-! ### Days of the week, and the count of days -/

/-- A week has seven days. -/
theorem weekday_lt (n : Int) : weekday n < 7 := by
  unfold weekday
  rw [Int.fmod_eq_emod_of_nonneg _ (by decide)]
  omega

/-- The day after a weekday is the next one. -/
theorem weekday_succ (n : Int) : weekday (n + 1) = (weekday n + 1) % 7 := by
  unfold weekday
  rw [Int.fmod_eq_emod_of_nonneg _ (by decide), Int.fmod_eq_emod_of_nonneg _ (by decide)]
  omega

/-- **Every number is that of a day**, with the date and the day of the week that are computed. -/
theorem isDay_ofDays (n : Int) : IsDay n (ofDays n) (weekday n) := by
  induction n using Int.induction_on with
  | zero => exact .first
  | succ n ih =>
      rw [ofDays_succ, weekday_succ]
      exact ih.next
  | pred n ih =>
      -- Backwards, the day is the one whose next day is known.
      refine .previous (isDate_ofDays _) (weekday_lt _) ?_
      rwa [← ofDays_succ, ← weekday_succ, Int.sub_add_cancel]

/-- **A date has one number**, and the number has one day of the week. -/
theorem IsDay.toDays_eq {n : Int} {date : Civil} {w : Nat} (h : IsDay n date w) :
    date.IsDate ∧ toDays date = n ∧ weekday n = w := by
  induction h with
  | first => exact ⟨⟨by decide, by decide, by decide, by decide⟩, by decide, by decide⟩
  | next h ih =>
      obtain ⟨hdate, hdays, hweekday⟩ := ih
      exact ⟨hdate.isDate_next, by rw [toDays_next hdate, hdays], by rw [weekday_succ, hweekday]⟩
  | previous hdate hlt h ih =>
      obtain ⟨-, hdays, hweekday⟩ := ih
      rw [toDays_next hdate] at hdays
      rw [weekday_succ] at hweekday
      have hmodulo := weekday_lt ‹Int›
      exact ⟨hdate, by omega, by omega⟩

end StringHarvest.Date
