import Simultaneous.Decimal.Binary
import Simultaneous.Text.Character

/-!
Reading numbers from text. Blanks around a number are skipped, digits of every script count, and an
underscore may stand between two digits.
-/

namespace Simultaneous.Decimal

open Text

/-- Digits of any script become ASCII digits, blanks become spaces. -/
def foldDigits (s : List Char) : List Char :=
  s.map fun c => match digitValue? c with
    | some v => Char.ofNat (48 + v)
    | none => if isBlank c then ' ' else c

/-- Remove underscores that stand between two digits; any other underscore spoils the text. -/
def dropUnderscores? : Option Char → List Char → Option (List Char)
  | _, [] => some []
  | before, '_' :: s => match before, s with
    | some b, c :: _ => if isAsciiDigit b && isAsciiDigit c then dropUnderscores? none s else none
    | _, _ => none
  | _, c :: s => (dropUnderscores? (some c) s).map (c :: ·)

def takeSign : List Char → Bool × List Char
  | '-' :: s => (true, s)
  | '+' :: s => (false, s)
  | s => (false, s)

/-- The value of a block of ASCII digits. -/
def digitsValue (s : List Char) : Nat := s.foldl (fun n c => 10 * n + (c.toNat - 48)) 0

def isDigits (s : List Char) : Bool := !s.isEmpty && s.all isAsciiDigit

/-- The longest text of digits that is turned into an integer. -/
def maxIntegerDigits : Nat := 4300

/-- Why a text is not an integer. -/
inductive NotInteger
  | malformed
  | tooLong (digits : Nat)
  deriving DecidableEq, Repr

def readInt (text : List Char) : Except NotInteger Int :=
  let (neg, s) := takeSign (trim (foldDigits text))
  match dropUnderscores? none s with
  | none => .error .malformed
  | some ds =>
    if !isDigits ds then .error .malformed
    else if maxIntegerDigits < ds.length then .error (.tooLong ds.length)
    else .ok (if neg then -(digitsValue ds : Int) else digitsValue ds)

/-- `± n * 10 ^ e` as a double; exponents far outside the range give an infinity or zero. -/
def scaled (neg : Bool) (n : Nat) (digits : Nat) (e : Int) : Float :=
  if n == 0 then nearest neg 0 1
  else if 400 < e + digits then infinity neg
  else if e + digits < -400 then nearest neg 0 1
  else if 0 ≤ e then nearest neg (n * Nat.pow 10 e.toNat) 1
  else nearest neg n (Nat.pow 10 (-e).toNat)

/-- A decimal without sign: digits with at most one point, then perhaps an exponent. -/
structure Scientific where
  mantissa : Nat
  digits : Nat
  exponent : Int
  deriving DecidableEq, Repr

def readExponent? : List Char → Option Int
  | [] => some 0
  | c :: s =>
    if c == 'e' || c == 'E' then
      let (neg, ds) := takeSign s
      if isDigits ds then some (if neg then -(digitsValue ds : Int) else digitsValue ds) else none
    else none

def readScientific? (s : List Char) : Option Scientific :=
  let whole := s.takeWhile isAsciiDigit
  let rest := s.dropWhile isAsciiDigit
  let (frac, rest) := match rest with
    | '.' :: r => (r.takeWhile isAsciiDigit, r.dropWhile isAsciiDigit)
    | r => ([], r)
  if whole.isEmpty && frac.isEmpty then none
  else (readExponent? rest).map fun e =>
    ⟨digitsValue (whole ++ frac), (whole ++ frac).length, e - frac.length⟩

def Scientific.toFloat (neg : Bool) (d : Scientific) : Float :=
  scaled neg d.mantissa d.digits d.exponent

/-- A double from text: a decimal, or a name of an infinity or of NaN in any case. -/
def readFloat? (text : List Char) : Option Float :=
  let (neg, s) := takeSign (trim (foldDigits text))
  let word := String.ofList (lower s)
  if word == "inf" || word == "infinity" then some (infinity neg)
  else if word == "nan" then some (0.0 / 0.0)
  else (dropUnderscores? none s).bind fun ds => (readScientific? ds).map (·.toFloat neg)

end Simultaneous.Decimal
