import StringHarvest.Date.Civil
import StringHarvest.Text.Blank

/-!
# Time stamps

The time in the first line of a template, such as `Thu Jan 01 1970 00:00:00 GMT+0000`. It can be
pinned by a number of seconds since the start of 1970, so that equal inputs give equal templates.
-/

namespace StringHarvest.Date

/-- The names of the days of the week from Sunday on. -/
def weekdayNames : List String := ["Sun", "Mon", "Tue", "Wed", "Thu", "Fri", "Sat"]

/-- The names of the months. -/
def monthNames : List String :=
  ["Jan", "Feb", "Mar", "Apr", "May", "Jun", "Jul", "Aug", "Sep", "Oct", "Nov", "Dec"]

/-- A number with zeros in front up to a width. -/
def padded (width n : Nat) : String :=
  let digits := Nat.toDigits 10 n
  String.ofList (List.replicate (width - digits.length) '0' ++ digits)

/-- A year with at least four digits, and with a sign unless it lies between 0 and 9999. -/
def yearText (year : Int) : String :=
  if year < 0 then "-" ++ padded 4 year.natAbs
  else if 9999 < year then "+" ++ padded 4 year.natAbs
  else padded 4 year.natAbs

/-- The seconds of a day. -/
def daySeconds : Int := 86400

/-- The date and time of a number of seconds since the start of 1970, with the
given zone at the end. -/
def clockText (zone : String) (seconds : Int) : String :=
  let days := seconds.fdiv daySeconds
  let second := (seconds.fmod daySeconds).toNat
  let date := ofDays days
  weekdayNames.getD (weekday days) "" ++ " " ++ monthNames.getD (date.month - 1) "" ++ " "
    ++ padded 2 date.day ++ " " ++ yearText date.year ++ " "
    ++ padded 2 (second / 3600) ++ ":" ++ padded 2 (second / 60 % 60) ++ ":"
    ++ padded 2 (second % 60) ++ " GMT" ++ zone

/-- The stamp of a number of seconds since the start of 1970, in universal time. -/
def stamp (seconds : Int) : String := clockText "+0000" seconds

/-- The distance of a zone from universal time in hours and minutes. -/
def zoneText (offset : Int) : String :=
  (if offset < 0 then "-" else "+") ++ padded 2 (offset.natAbs / 3600)
    ++ padded 2 (offset.natAbs / 60 % 60)

/-- The stamp of a number of seconds since the start of 1970, in a zone that is `offset`
seconds ahead of universal time. -/
def localStamp (offset seconds : Int) : String := clockText (zoneText offset) (seconds + offset)

/-- The first second of the year -262143, the earliest that has a stamp. -/
def earliest : Int := toDays ⟨-262143, 1, 1⟩ * daySeconds

/-- The last second of the year 262142, the latest that has a stamp. -/
def latest : Int := toDays ⟨262143, 1, 1⟩ * daySeconds - 1

/-- The number that decimal digits spell; there must be at least one. -/
def digits? (cs : List Char) : Option Nat :=
  if cs.isEmpty || !cs.all (fun c => '0' ≤ c && c ≤ '9') then none
  else some (cs.foldl (fun n c => n * 10 + (c.toNat - 48)) 0)

/-- The whole number of 64 bits that a text spells, with an optional sign. -/
def integer? (cs : List Char) : Option Int :=
  let value : Option Int := match cs with
    | '-' :: rest => (digits? rest).map fun n => -(n : Int)
    | '+' :: rest => (digits? rest).map fun n => (n : Int)
    | cs => (digits? cs).map fun n => (n : Int)
  value.filter fun n => -9223372036854775808 ≤ n && n ≤ 9223372036854775807

/-- The stamp that a text pins, if it spells a time that has one. -/
def pinned? (text : String) : Option String :=
  (integer? (Text.trim text.toList)).bind fun n =>
    if earliest ≤ n && n ≤ latest then some (stamp n) else none

end StringHarvest.Date
