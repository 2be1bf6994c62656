namespace DrawnSchema

def padded (width n : Nat) : String :=
  let ds := Nat.toDigits 10 n
  String.ofList (List.replicate (width - ds.length) '0' ++ ds)

structure Day where
  year : Nat
  month : Nat
  day : Nat
deriving DecidableEq, Repr

namespace Day

def isLeap (year : Nat) : Bool := year % 4 == 0 && (year % 100 != 0 || year % 400 == 0)

def daysIn (year month : Nat) : Nat :=
  if month == 2 then if isLeap year then 29 else 28
  else if [4, 6, 9, 11].contains month then 30
  else 31

/-- The days from the first day of the year 1, which counts as one. -/
def ordinal (d : Day) : Nat :=
  let before := d.year - 1
  let ofMonths := (List.range (d.month - 1)).foldl (fun days m => days + daysIn d.year (m + 1)) 0
  before * 365 + before / 4 - before / 100 + before / 400 + ofMonths + d.day

def text (d : Day) : String :=
  padded 4 d.year ++ "-" ++ padded 2 d.month ++ "-" ++ padded 2 d.day

def shown (d : Day) : String := s!"datetime.date({d.year}, {d.month}, {d.day})"

end Day

def spanText (days : Int) (seconds : Nat) : String :=
  let parts := (if days = 0 then [] else [s!"days={days}"]) ++
    (if seconds = 0 then [] else [s!"seconds={seconds}"])
  "datetime.timedelta(" ++ String.intercalate ", " parts ++ ")"

structure Moment where
  day : Day
  hour : Nat
  minute : Nat
  second : Nat
  micros : Nat
  offset : Option Int
deriving DecidableEq, Repr

namespace Moment

def offsetText : Option Int → String
  | none => ""
  | some minutes =>
    let n := minutes.natAbs
    (if minutes < 0 then "-" else "+") ++ padded 2 (n / 60) ++ ":" ++ padded 2 (n % 60)

def textWith (mark : String) (t : Moment) : String :=
  let places := if t.micros = 0 then "" else "." ++ padded 6 t.micros
  t.day.text ++ mark ++ padded 2 t.hour ++ ":" ++ padded 2 t.minute ++ ":" ++ padded 2 t.second ++
    places ++ offsetText t.offset

def iso (t : Moment) : String := t.textWith "T"

def text (t : Moment) : String := t.textWith " "

def zoneShown (minutes : Int) : String :=
  if minutes = 0 then "datetime.timezone.utc"
  else
    let span := spanText (minutes.fdiv (24 * 60)) ((minutes.fmod (24 * 60)).toNat * 60)
    s!"datetime.timezone({span})"

/-- A moment as a part of something shown. Seconds that are zero are left out when nothing smaller
follows. -/
def shown (t : Moment) : String :=
  let small :=
    if t.micros ≠ 0 then [t.second, t.micros]
    else if t.second ≠ 0 then [t.second]
    else []
  let numbers := [t.day.year, t.day.month, t.day.day, t.hour, t.minute] ++ small
  let parts := numbers.map toString ++ (t.offset.map fun m => "tzinfo=" ++ zoneShown m).toList
  "datetime.datetime(" ++ String.intercalate ", " parts ++ ")"

def clock (t : Moment) : Int :=
  let minutes := (t.day.ordinal * 24 + t.hour) * 60 + t.minute
  ((minutes * 60 + t.second) * 1000000 + t.micros : Nat)

/-- Whether two moments are the same. With offsets it is the universal time that counts. -/
def sameInstant (t u : Moment) : Bool :=
  match t.offset, u.offset with
  | some m, some n => t.clock - m * 60000000 == u.clock - n * 60000000
  | none, none => t.clock == u.clock
  | _, _ => false

end Moment

end DrawnSchema
