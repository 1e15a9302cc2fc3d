import WasmPackage.Text.Basic

/-!
# Dates and times

A moment is a date, a time of day, or both, perhaps with the distance from universal time.  Settings
may hold moments; nothing is computed with them, they are read and shown.
-/

namespace WasmPackage

/-- A day of the calendar. -/
structure Date where
  year : Nat
  month : Nat
  day : Nat
deriving DecidableEq, Repr

/-- A time of day. -/
structure TimeOfDay where
  hour : Nat
  minute : Nat
  second : Nat
  microsecond : Nat
deriving DecidableEq, Repr

/-- A date, a time, or both; `zone` is the number of minutes ahead of universal time. -/
inductive Moment
  | date (d : Date)
  | time (t : TimeOfDay)
  | dateTime (d : Date) (t : TimeOfDay) (zone : Option Int)
deriving DecidableEq, Repr

namespace Date

/-- The number of days in a month. -/
def daysIn (year month : Nat) : Nat :=
  if month = 2 then
    if year % 4 = 0 && (year % 100 ≠ 0 || year % 400 = 0) then 29 else 28
  else if [4, 6, 9, 11].contains month then 30
  else 31

/-- Is this a day of the calendar?  There is no year zero. -/
def isValid (d : Date) : Bool :=
  1 ≤ d.year && 1 ≤ d.month && d.month ≤ 12 && 1 ≤ d.day && d.day ≤ daysIn d.year d.month

end Date

namespace Moment

/-! ## Reading -/

/-- The number that the first `count` characters write, if all of them are digits. -/
def digits? (count : Nat) (t : Text) : Option (Nat × Text) :=
  let ds := t.take count
  if ds.length = count && ds.all Char.isDigit then
    some (ds.foldl (fun n d => 10 * n + (d.toNat - '0'.toNat)) 0, t.drop count)
  else none

/-- Two digits whose number lies between `low` and `high`. -/
def twoDigits? (low high : Nat) (t : Text) : Option (Nat × Text) := do
  let (n, r) ← digits? 2 t
  if low ≤ n && n ≤ high then some (n, r) else none

/-- The text behind a character that it begins with. -/
def behind? (c : Char) : Text → Option Text
  | d :: r => if d = c then some r else none
  | [] => none

/-- A date at the start of the text; that its month has the day is not checked here. -/
def readDate (t : Text) : Option (Date × Text) := do
  let (year, t) ← digits? 4 t
  let (month, t) ← twoDigits? 1 12 (← behind? '-' t)
  let (day, t) ← twoDigits? 1 31 (← behind? '-' t)
  return (⟨year, month, day⟩, t)

/-- A fraction of a second, in microseconds; digits beyond the sixth are dropped. -/
def readFraction (t : Text) : Nat × Text :=
  match t with
  | '.' :: r =>
    let ds := r.takeWhile Char.isDigit
    if ds.isEmpty then (0, t)
    else
      let six := (ds ++ List.replicate 6 '0').take 6
      (((digits? 6 six).map (·.1)).getD 0, r.drop ds.length)
  | _ => (0, t)

/-- A time of day at the start of the text. -/
def readTime (t : Text) : Option (TimeOfDay × Text) := do
  let (hour, t) ← twoDigits? 0 23 t
  let (minute, t) ← twoDigits? 0 59 (← behind? ':' t)
  let (second, t) ← twoDigits? 0 59 (← behind? ':' t)
  let (microsecond, t) := readFraction t
  return (⟨hour, minute, second, microsecond⟩, t)

/-- A distance from universal time, in minutes. -/
def readDistance (sign : Int) (t : Text) : Option (Int × Text) := do
  let (hours, t) ← twoDigits? 0 23 t
  let (minutes, t) ← twoDigits? 0 59 (← behind? ':' t)
  return (sign * (60 * hours + minutes), t)

/-- A time zone at the start of the text, if one stands there. -/
def readZone (t : Text) : Option Int × Text :=
  let found :=
    match t with
    | '+' :: r => readDistance 1 r
    | '-' :: r => readDistance (-1) r
    | c :: r => if c = 'Z' || c = 'z' then some (0, r) else none
    | [] => none
  match found with
  | some (zone, r) => (some zone, r)
  | none => (none, t)

/-- A moment at the start of the text.  A date goes on with a time if one follows behind a letter or
a space. -/
def read (t : Text) : Option (Moment × Text) :=
  match readDate t with
  | some (d, r) =>
    let behindMark := match r with
      | c :: r => if c = 'T' || c = 't' || c = ' ' then readTime r else none
      | [] => none
    match behindMark with
    | some (clock, r) =>
      let (zone, r) := readZone r
      some (.dateTime d clock zone, r)
    | none => some (.date d, r)
  | none => (readTime t).map (fun (clock, r) => (.time clock, r))

/-- Does the moment lie in the calendar? -/
def isValid : Moment → Bool
  | .date d => d.isValid
  | .time _ => true
  | .dateTime d _ _ => d.isValid

/-! ## Showing -/

/-- A date as it is written in settings. -/
def dateText (d : Date) : String :=
  s!"{paddedNumber 4 d.year}-{paddedNumber 2 d.month}-{paddedNumber 2 d.day}"

/-- A time of day as it is written in settings, with six places of a second or with none. -/
def timeText (t : TimeOfDay) : String :=
  let fraction := if t.microsecond = 0 then "" else "." ++ paddedNumber 6 t.microsecond
  s!"{paddedNumber 2 t.hour}:{paddedNumber 2 t.minute}:{paddedNumber 2 t.second}" ++ fraction

/-- A distance from universal time with its sign. -/
def zoneText (minutes : Int) : String :=
  let sign := if minutes < 0 then "-" else "+"
  sign ++ s!"{paddedNumber 2 (minutes.natAbs / 60)}:{paddedNumber 2 (minutes.natAbs % 60)}"

/-- A moment as it is written in settings. -/
def text : Moment → String
  | .date d => dateText d
  | .time t => timeText t
  | .dateTime d t zone => s!"{dateText d} {timeText t}" ++ (zone.map zoneText).getD ""

/-- The parts of a time of day that are named in a message: seconds and their fractions only if they
are not zero. -/
def timeParts (t : TimeOfDay) : List Nat :=
  if t.microsecond ≠ 0 then [t.hour, t.minute, t.second, t.microsecond]
  else if t.second ≠ 0 then [t.hour, t.minute, t.second]
  else [t.hour, t.minute]

/-- The name of a time zone in a message: a distance to the west is given as a day less and the
seconds from there. -/
def zoneName (minutes : Int) : String :=
  if minutes = 0 then "datetime.timezone.utc"
  else
    let parts :=
      if minutes < 0 then s!"days=-1, seconds={86400 + 60 * minutes}"
      else s!"seconds={60 * minutes}"
    s!"datetime.timezone(datetime.timedelta({parts}))"

/-- Numbers with commas between them. -/
def listed (ns : List Nat) : String :=
  ", ".intercalate (ns.map toString)

/-- A moment as messages name it. -/
def name : Moment → String
  | .date d => s!"datetime.date({listed [d.year, d.month, d.day]})"
  | .time t => s!"datetime.time({listed (timeParts t)})"
  | .dateTime d t zone =>
    let zoned := (zone.map (fun z => ", tzinfo=" ++ zoneName z)).getD ""
    s!"datetime.datetime({listed ([d.year, d.month, d.day] ++ timeParts t)}" ++ zoned ++ ")"

end Moment

end WasmPackage
