import DesignTokens.Document.Mapping

/-!
# Calendar stamps

Dates and times of day as a document may hold them. They take part in no arithmetic; they are
checked against the calendar and written as text.

## Main definitions

- `Date`, `Moment`, `Stamp` — a day, a time on a day, and either of them
- `Date.check`, `Moment.check` — the first fault against the calendar
- `Stamp.iso`, `Stamp.compact`, `Stamp.shown` — the three texts of a stamp
-/

namespace DesignTokens

/-- A day of the calendar. -/
structure Date where
  year : Nat
  month : Nat
  day : Nat
  deriving DecidableEq, Repr

/-- A time on a day. The offset counts minutes east of Greenwich. -/
structure Moment where
  date : Date
  hour : Nat
  minute : Nat
  second : Nat
  microsecond : Nat
  offset : Option Int
  deriving DecidableEq, Repr

/-- A day, or a time on a day. -/
inductive Stamp where
  | date (d : Date)
  | moment (m : Moment)
  deriving DecidableEq, Repr

/-- Why digits are no stamp. -/
inductive CalendarFault where
  | year (n : Nat)
  | month
  | day
  | hour
  | minute
  | second
  | offset (minutes : Int)
  deriving DecidableEq, Repr

/-- A span of minutes as it appears inside a message, in days and seconds. -/
def shownMinutes (minutes : Int) : String :=
  let days := minutes.fdiv 1440
  let seconds := minutes.fmod 1440 * 60
  let parts := (if days = 0 then [] else ["days=" ++ toString days]) ++
    (if seconds = 0 then [] else ["seconds=" ++ toString seconds])
  "datetime.timedelta(" ++ (if parts.isEmpty then "0" else ", ".intercalate parts) ++ ")"

/-- The wording of a calendar fault. -/
def CalendarFault.message : CalendarFault → String
  | .year n => s!"year {n} is out of range"
  | .month => "month must be in 1..12"
  | .day => "day is out of range for month"
  | .hour => "hour must be in 0..23"
  | .minute => "minute must be in 0..59"
  | .second => "second must be in 0..59"
  | .offset minutes => "offset must be a timedelta strictly between -timedelta(hours=24) and " ++
      "timedelta(hours=24), not " ++ shownMinutes minutes ++ "."

/-- The days of a month. -/
def daysInMonth (year month : Nat) : Nat :=
  if month == 2 then
    if year % 4 == 0 && (year % 100 != 0 || year % 400 == 0) then 29 else 28
  else if month == 4 || month == 6 || month == 9 || month == 11 then 30
  else 31

/-- The first fault of a day. -/
def Date.check (d : Date) : Option CalendarFault :=
  if d.year == 0 then some (.year d.year)
  else if d.month == 0 || d.month > 12 then some .month
  else if d.day == 0 || d.day > daysInMonth d.year d.month then some .day
  else none

/-- The first fault of a moment. -/
def Moment.check (m : Moment) : Option CalendarFault :=
  match m.offset.filter fun minutes => minutes.natAbs ≥ 24 * 60 with
  | some minutes => some (.offset minutes)
  | none =>
    match m.date.check with
    | some fault => some fault
    | none =>
      if m.hour > 23 then some .hour
      else if m.minute > 59 then some .minute
      else if m.second > 59 then some .second
      else none

def padded (width n : Nat) : String :=
  let digits := toString n
  String.ofList (List.replicate (width - digits.length) '0') ++ digits

def Date.iso (d : Date) : String :=
  padded 4 d.year ++ "-" ++ padded 2 d.month ++ "-" ++ padded 2 d.day

/-- The offset of a moment from Greenwich. -/
def renderOffset (minutes : Int) : String :=
  (if minutes < 0 then "-" else "+") ++ padded 2 (minutes.natAbs / 60) ++ ":" ++
    padded 2 (minutes.natAbs % 60)

/-- A moment with a separator between day and time and a given text of the offset. -/
def Moment.render (separator : String) (offset : Int → String) (m : Moment) : String :=
  m.date.iso ++ separator ++ padded 2 m.hour ++ ":" ++ padded 2 m.minute ++ ":" ++
    padded 2 m.second ++ (if m.microsecond == 0 then "" else "." ++ padded 6 m.microsecond) ++
    (m.offset.map offset).getD ""

/-- The text of a stamp with the letter T between day and time. -/
def Stamp.iso : Stamp → String
  | .date d => d.iso
  | .moment m => m.render "T" renderOffset

/-- The text of a stamp in a written document, where Greenwich is the letter Z. -/
def Stamp.compact : Stamp → String
  | .date d => d.iso
  | .moment m => m.render "T" fun minutes => if minutes == 0 then "Z" else renderOffset minutes

/-- The text of a stamp as a key, with a space between day and time. -/
def Stamp.plain : Stamp → String
  | .date d => d.iso
  | .moment m => m.render " " renderOffset

/-- The offset of a moment as it appears inside a message. -/
def shownOffset (minutes : Int) : String :=
  if minutes == 0 then "datetime.timezone.utc"
  else "datetime.timezone(" ++ shownMinutes minutes ++ ")"

/-- A stamp as it appears inside a message. -/
def Stamp.shown : Stamp → String
  | .date d => s!"datetime.date({d.year}, {d.month}, {d.day})"
  | .moment m =>
    let seconds :=
      if m.microsecond != 0 then [m.second, m.microsecond]
      else if m.second != 0 then [m.second]
      else []
    let numbers := [m.date.year, m.date.month, m.date.day, m.hour, m.minute] ++ seconds
    let parts := numbers.map toString ++
      (m.offset.map fun minutes => "tzinfo=" ++ shownOffset minutes).toList
    "datetime.datetime(" ++ ", ".intercalate parts ++ ")"

end DesignTokens
