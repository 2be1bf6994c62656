import DrawnSchema.Value
import DrawnSchema.Yaml.Cursor
import DrawnSchema.Yaml.Error

namespace DrawnSchema.Yaml

/-- A day, and perhaps a time of the day, as written. The offset is given in minutes. -/
structure Timestamp where
  day : Day
  time : Option (Nat × Nat × Nat × List Char × Option Int)

namespace Timestamp

def digits? (least most : Nat) (cs : List Char) : Option (Nat × List Char) :=
  let ds := (cs.take most).takeWhile Text.isDecimal
  if ds.length < least then none else some (Text.digitsValue 10 ds, cs.drop ds.length)

def mark? (c : Char) : List Char → Option (List Char)
  | d :: cs => if d == c then some cs else none
  | [] => none

def offset? (cs : List Char) : Option (Option Int) :=
  match cs.dropWhile isBlank with
  | [] => if cs.isEmpty then some none else none
  | ['Z'] => some (some 0)
  | sign :: rest =>
    if sign == '+' || sign == '-' then do
      let (hours, rest) ← digits? 1 2 rest
      let minutes ← match rest with
        | [] => some 0
        | ':' :: rest =>
          match digits? 2 2 rest with
          | some (m, []) => some m
          | _ => none
        | _ => none
      let total : Int := (hours * 60 + minutes : Nat)
      some (some (if sign == '-' then -total else total))
    else none

def fraction (cs : List Char) : List Char × List Char :=
  match cs with
  | '.' :: rest => rest.span Text.isDecimal
  | _ => ([], cs)

def timeOfDay? (cs : List Char) : Option (Nat × Nat × Nat × List Char × Option Int) := do
  let (hour, cs) ← digits? 1 2 cs
  let (minute, cs) ← digits? 2 2 (← mark? ':' cs)
  let (second, cs) ← digits? 2 2 (← mark? ':' cs)
  let (places, cs) := fraction cs
  some (hour, minute, second, places, ← offset? cs)

def time? (cs : List Char) : Option (Option (Nat × Nat × Nat × List Char × Option Int)) :=
  match cs with
  | [] => some none
  | c :: rest =>
    if c == 'T' || c == 't' then (timeOfDay? rest).map some
    else if isBlank c then (timeOfDay? (rest.dropWhile isBlank)).map some
    else none

def ofText? (cs : List Char) : Option Timestamp := do
  let (year, cs) ← digits? 4 4 cs
  let (month, cs) ← digits? 1 2 (← mark? '-' cs)
  let (day, cs) ← digits? 1 2 (← mark? '-' cs)
  some { day := { year, month, day }, time := ← time? cs }

/-- Whether a plain text is a timestamp. A day alone needs all its digits. -/
def isPlainText (cs : List Char) : Bool :=
  match ofText? cs with
  | some t => t.time.isSome || cs.length == 10
  | none => false

def checkDay (d : Day) : Except Error Unit :=
  if d.year = 0 then .error (.noYear d.year)
  else if d.month < 1 || 12 < d.month then .error .noMonth
  else if d.day < 1 || Day.daysIn d.year d.month < d.day then .error .noDay
  else .ok ()

def checkOffset : Option Int → Except Error Unit
  | some minutes =>
    if minutes.natAbs < 24 * 60 then .ok ()
    else .error (.noOffset (minutes.fdiv (24 * 60)) ((minutes.fmod (24 * 60)).toNat * 60))
  | none => .ok ()

/-- The microseconds that the decimal places of a second come to; only six places count. -/
def micros (places : List Char) : Nat :=
  Text.digitsValue 10 ((places ++ List.replicate 6 '0').take 6)

def toScalar (t : Timestamp) : Except Error Scalar := do
  match t.time with
  | none =>
    checkDay t.day
    .ok (.date t.day)
  | some (hour, minute, second, places, offset) =>
    checkOffset offset
    checkDay t.day
    if hour > 23 then .error .noHour
    else if minute > 59 then .error .noMinute
    else if second > 59 then .error .noSecond
    else .ok (.timestamp { day := t.day, hour, minute, second, micros := micros places, offset })

end Timestamp

end DrawnSchema.Yaml
