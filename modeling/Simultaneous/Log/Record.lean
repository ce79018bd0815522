import Simultaneous.Failure
import Simultaneous.Log.Entry

/-!
Log records with their time: the time in the form of calendars and clocks, and messages with places
for arguments.
-/

namespace Simultaneous.Log

open Text

/-- A year, a month and a day. -/
structure Date where
  year : Int
  month : Nat
  day : Nat
  deriving DecidableEq, Repr

/-- The date so many days after the first day of 1970, counting in eras of 400 years that begin in
March. -/
def Date.ofDays (days : Int) : Date :=
  let d := days + 719468
  let era := d / 146097
  let dayOfEra := (d % 146097).toNat
  let yearOfEra :=
    (dayOfEra - dayOfEra / 1460 + dayOfEra / 36524 - dayOfEra / 146096) / 365
  let dayOfYear := dayOfEra - (365 * yearOfEra + yearOfEra / 4 - yearOfEra / 100)
  let m := (5 * dayOfYear + 2) / 153
  let day := dayOfYear - (153 * m + 2) / 5 + 1
  let month := if m < 10 then m + 3 else m - 9
  ⟨yearOfEra + era * 400 + (if month ≤ 2 then 1 else 0), month, day⟩

def padded (width n : Nat) : String :=
  let s := toString n
  String.ofList (List.replicate (width - s.length) '0') ++ s

/-- The time so many seconds after the beginning of 1970, to the microsecond. -/
def timeText (seconds : Rat) : String :=
  let scaled := seconds * 1000000
  let micros := (Decimal.roundDiv scaled.num.natAbs scaled.den : Int)
  let micros := if scaled.num < 0 then -micros else micros
  let whole := micros / 1000000
  let fraction := (micros % 1000000).toNat
  let date := Date.ofDays (whole / 86400)
  let second := (whole % 86400).toNat
  padded 4 date.year.toNat ++ "-" ++ padded 2 date.month ++ "-" ++ padded 2 date.day ++ "T" ++
    padded 2 (second / 3600) ++ ":" ++ padded 2 (second / 60 % 60) ++ ":" ++
    padded 2 (second % 60) ++ (if fraction = 0 then "" else "." ++ padded 6 fraction)

/-- The message of a record; without arguments it is taken as it stands. -/
def messageText (message : String) (args : List Literal) : Attempt String :=
  if args.isEmpty then .ok message
  else (Template.fill message args).mapError fun m => .broken (.badTemplate m)

/-- A record as a line: time, level, logger and message. -/
def recordLine (seconds : Rat) (rank : Int) (logger message : String) (args : List Literal) :
    Attempt String := do
  let text ← messageText message args
  return timeText seconds ++ " [" ++ Level.nameOfRank rank ++ "] " ++ logger ++ ": " ++ text

end Simultaneous.Log
