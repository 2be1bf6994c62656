import DrawnSchema.Calendar
import DrawnSchema.Text.Digits
import DrawnSchema.Value.Text

namespace DrawnSchema.Yaml

/-- Why a text cannot be read. A text that is well formed may still hold scalars that stand for
nothing. -/
inductive Error where
  | malformed
  | notUnicode
  | tooDeep
  | noSuchCharacter
  | codeTooLarge
  | notWhole (base : Nat) (text : String)
  | tooManyDigits (count : Nat)
  | notANumber (text : String)
  | noYear (year : Nat)
  | noMonth
  | noDay
  | noHour
  | noMinute
  | noSecond
  | noOffset (days : Int) (seconds : Nat)
  | unknownTruth
  | emptyNumber
  | notATimestamp
  | notAText
  | scaleTooLarge
deriving DecidableEq, Repr

/-- A text as a message about a whole number shows it, which is cut if it is long. -/
def shownNumeral (text : String) : String := String.ofList ((shownText text).toList.take 200)

def Error.message? : Error → Option String
  | .noSuchCharacter => some "chr() arg not in range(0x110000)"
  | .notWhole base text =>
    some s!"invalid literal for int() with base {base}: {shownNumeral text}"
  | .tooManyDigits count => some (Text.tooManyDigits count)
  | .notANumber text => some s!"could not convert string to float: {shownText text}"
  | .noYear year => some s!"year {year} is out of range"
  | .noMonth => some "month must be in 1..12"
  | .noDay => some "day is out of range for month"
  | .noHour => some "hour must be in 0..23"
  | .noMinute => some "minute must be in 0..59"
  | .noSecond => some "second must be in 0..59"
  | .noOffset days seconds =>
    some ("offset must be a timedelta strictly between -timedelta(hours=24) and " ++
      s!"timedelta(hours=24), not {spanText days seconds}.")
  | _ => none

end DrawnSchema.Yaml
