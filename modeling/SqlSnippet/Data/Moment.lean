import SqlSnippet.Text.Blank

/-!
# Dates and times

A configuration value may be a day, a time of day, or both together, with or without a distance
from universal time. Each has a plain form (`1979-05-27 07:32:00+00:00`) and, inside lists and
tables, a constructor form that names the parts.
-/

namespace SqlSnippet

/-- A day of the calendar. -/
structure Day where
  year : Nat
  month : Nat
  day : Nat
  deriving DecidableEq, Repr

/-- A time of day. -/
structure Clock where
  hour : Nat
  minute : Nat
  second : Nat
  micro : Nat
  deriving DecidableEq, Repr

/-- A day, a time of day, or a day and a time, which may be some minutes east of universal
time. -/
inductive Moment where
  | day (d : Day)
  | clock (t : Clock)
  | both (d : Day) (t : Clock) (east : Option Int)
  deriving DecidableEq, Repr

/-- Whether a year of the calendar has a 29th of February. -/
def isLeapYear (year : Nat) : Bool :=
  year % 4 == 0 && (year % 100 != 0 || year % 400 == 0)

/-- How many days a month has. -/
def daysIn (year month : Nat) : Nat :=
  match month with
  | 2 => if isLeapYear year then 29 else 28
  | 4 | 6 | 9 | 11 => 30
  | _ => 31

/-- Whether the calendar has the day; it starts with year one. -/
def Day.isValid (d : Day) : Bool :=
  1 ≤ d.year && d.year ≤ 9999 && 1 ≤ d.month && d.month ≤ 12 && 1 ≤ d.day &&
    d.day ≤ daysIn d.year d.month

/-! ## Plain form -/

/-- A number with zeros in front, up to a width. -/
def padded (width n : Nat) : String :=
  let ds := toString n
  String.ofList (List.replicate (width - ds.length) '0') ++ ds

/-- Year, month and day. -/
def Day.text (d : Day) : String :=
  padded 4 d.year ++ "-" ++ padded 2 d.month ++ "-" ++ padded 2 d.day

/-- Hours, minutes and seconds, with microseconds if there are any. -/
def Clock.text (t : Clock) : String :=
  padded 2 t.hour ++ ":" ++ padded 2 t.minute ++ ":" ++ padded 2 t.second ++
    if t.micro = 0 then "" else "." ++ padded 6 t.micro

/-- A distance from universal time as a sign, hours and minutes. -/
def offsetText (east : Int) : String :=
  (if east < 0 then "-" else "+") ++ padded 2 (east.natAbs / 60) ++ ":" ++
    padded 2 (east.natAbs % 60)

/-- The plain form of a moment. -/
def Moment.text : Moment → String
  | .day d => d.text
  | .clock t => t.text
  | .both d t east => d.text ++ " " ++ t.text ++ (east.map offsetText).getD ""

/-! ## Constructor form -/

/-- Numbers between brackets, with commas. -/
def numberList (ns : List Nat) : String :=
  ", ".intercalate (ns.map toString)

/-- The parts of a time; seconds and microseconds are left out from the end while they are
zero. -/
def Clock.parts (t : Clock) : List Nat :=
  [t.hour, t.minute] ++
    if t.micro ≠ 0 then [t.second, t.micro] else if t.second ≠ 0 then [t.second] else []

/-- The constructor form of a distance from universal time. -/
def offsetLiteral (east : Int) : String :=
  if east = 0 then "datetime.timezone.utc"
  else
    let days := if east < 0 then "days=-1, " else ""
    let seconds := (if east < 0 then east + 24 * 60 else east) * 60
    "datetime.timezone(datetime.timedelta(" ++ days ++ "seconds=" ++ toString seconds ++ "))"

/-- The constructor form of a moment. -/
def Moment.literal : Moment → String
  | .day d => "datetime.date(" ++ numberList [d.year, d.month, d.day] ++ ")"
  | .clock t => "datetime.time(" ++ numberList t.parts ++ ")"
  | .both d t east =>
    "datetime.datetime(" ++ numberList ([d.year, d.month, d.day] ++ t.parts) ++
      (east.map fun e => ", tzinfo=" ++ offsetLiteral e).getD "" ++ ")"

end SqlSnippet
