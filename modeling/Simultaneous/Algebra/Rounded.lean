import Simultaneous.Decimal.Reading

/-!
Binary numbers of a chosen precision: an integer times a power of two, of any size, rounded to the
nearest number whose integer has at most `prec` bits, a tie to the even one.
-/

namespace Simultaneous.Algebra

open Decimal

/-- `mant * 2 ^ exp`, with an odd or zero `mant` of at most `prec` bits. -/
structure Rounded where
  mant : Int
  exp : Int
  prec : Nat
  deriving DecidableEq, Repr

namespace Rounded

def bitLength (n : Nat) : Nat := if n == 0 then 0 else Nat.log2 n + 1

/-- Divide by two as long as nothing is lost; `fuel` bounds the steps. -/
def reduce : Nat → Nat → Int → Nat × Int
  | 0, n, e => (n, e)
  | fuel + 1, n, e => if n != 0 && n % 2 == 0 then reduce fuel (n / 2) (e + 1) else (n, e)

def signed (neg : Bool) (n : Nat) : Int := if neg then -(n : Int) else n

/-- `m * 2 ^ e` rounded to `prec` bits. -/
def make (prec : Nat) (m e : Int) : Rounded :=
  let n := m.natAbs
  let extra := bitLength n - prec
  let n' := roundDiv n (Nat.pow 2 extra)
  let (n'', e'') := reduce (bitLength n') n' (e + extra)
  if n'' == 0 then ⟨0, 0, prec⟩ else ⟨signed (m < 0) n'', e'', prec⟩

/-- The quotient of two natural numbers rounded to `prec` bits, for `d` positive. One bit below the
quotient's last stands for all that was cut off. -/
def ofRatio (prec : Nat) (neg : Bool) (n d : Nat) : Rounded :=
  let shift := prec + 2 + bitLength d - bitLength n
  let scaled := n * Nat.pow 2 shift
  let q := 2 * (scaled / d) + (if scaled % d == 0 then 0 else 1)
  make prec (signed neg q) (-(shift : Int) - 1)

def ofRat (prec : Nat) (q : Rat) : Rounded := ofRatio prec (q.num < 0) q.num.natAbs q.den

def isZero (x : Rounded) : Bool := x.mant == 0

def neg (x : Rounded) : Rounded := { x with mant := -x.mant }

def abs (x : Rounded) : Rounded := { x with mant := x.mant.natAbs }

def isNegative (x : Rounded) : Bool := x.mant < 0

def add (x y : Rounded) : Rounded :=
  let e := min x.exp y.exp
  make (max x.prec y.prec)
    (x.mant * Int.pow 2 (x.exp - e).toNat + y.mant * Int.pow 2 (y.exp - e).toNat) e

def mul (x y : Rounded) : Rounded :=
  make (max x.prec y.prec) (x.mant * y.mant) (x.exp + y.exp)

/-- The quotient, for `y` not zero. -/
def div (x y : Rounded) : Rounded :=
  let prec := max x.prec y.prec
  let r := ofRatio prec ((x.mant < 0) != (y.mant < 0)) x.mant.natAbs y.mant.natAbs
  make prec r.mant (r.exp + x.exp - y.exp)

/-- Repeated multiplication by squaring at a fixed precision; `fuel` bounds the bits of `n`. -/
def powLoop : Nat → Rounded → Rounded → Nat → Rounded
  | 0, _, acc, _ => acc
  | fuel + 1, base, acc, n =>
    if n == 0 then acc
    else powLoop fuel (mul base base) (if n % 2 == 1 then mul acc base else acc) (n / 2)

/-- A natural power: exact before the last rounding while the result is short. -/
def pow (x : Rounded) (n : Nat) : Rounded :=
  if bitLength x.mant.natAbs * n < 1000 then make x.prec (Int.pow x.mant n) (x.exp * n)
  else
    let wide := x.prec + 2 * bitLength n + 32
    let r := powLoop (bitLength n) { x with prec := wide } (make wide 1 0) n
    make x.prec r.mant r.exp

def zpow (x : Rounded) (n : Int) : Rounded :=
  if 0 ≤ n then pow x n.toNat
  else
    let wide := x.prec + 32
    let r := div (make wide 1 0) { pow { x with prec := wide } n.natAbs with prec := wide }
    make x.prec r.mant r.exp

def toRat (x : Rounded) : Rat :=
  if 0 ≤ x.exp then (x.mant * Int.pow 2 x.exp.toNat : Int)
  else mkRat x.mant (Nat.pow 2 (-x.exp).toNat)

/-- The nearest double; far outside the range an infinity or zero. -/
def toFloat (x : Rounded) : Float :=
  let n := x.mant.natAbs
  let top : Int := x.exp + bitLength n
  if 2000 < top then infinity (x.mant < 0)
  else if top < -2000 then nearest (x.mant < 0) 0 1
  else if 0 ≤ x.exp then nearest (x.mant < 0) (n * Nat.pow 2 x.exp.toNat) 1
  else nearest (x.mant < 0) n (Nat.pow 2 (-x.exp).toNat)

/-- A finite double at a given precision. -/
def ofFloat? (prec : Nat) (x : Float) : Option Rounded :=
  (Decimal.ofFloat? x).map fun b => make prec (signed b.neg b.mant) b.exp

/-- The bits needed for `n` decimal digits. -/
def bitsFor (n : Nat) : Nat :=
  max 1 (((n + 1) * 33219280948873626 + 5000000000000000) / 10000000000000000)

/-- The decimal digits that `prec` bits carry. -/
def digitsOf (prec : Nat) : Nat :=
  max 1 ((prec * 10000000000000000 + 33219280948873626 / 2) / 33219280948873626 - 1)

/-- Remove zeros in front. -/
def dropZeros (s : List Char) : List Char := s.dropWhile (· == '0')

/-- The number of digits a decimal shows, zeros in front left out; a whole number without a point
counts the digits of its value. -/
def shownDigits (s : List Char) (d : Scientific) : Nat :=
  let mantissa := s.takeWhile fun c => c != 'e' && c != 'E'
  let n := max 1 (dropZeros (mantissa.filter Text.isAsciiDigit)).length
  if s.contains '.' || d.exponent < 0 then n
  else max n ((toString d.mantissa).length + d.exponent.toNat)

/-- A decimal at the precision of its digits, but of fifteen at least. -/
def ofDecimal? (s : List Char) : Option Rounded :=
  (Decimal.dropUnderscores? none s).bind fun s => (readScientific? s).map fun d =>
    let prec := bitsFor (max 15 (shownDigits s d))
    if 0 ≤ d.exponent then make prec (d.mantissa * Nat.pow 10 d.exponent.toNat : Nat) 0
    else ofRatio prec false d.mantissa (Nat.pow 10 (-d.exponent).toNat)

/-- The digits of a nonzero number to the precision it carries, a half rounded up, and the power of
ten of the last digit. -/
def toDigits (x : Rounded) : Nat × Int :=
  let dps := digitsOf x.prec
  let n := x.mant.natAbs
  let (n, d) := if 0 ≤ x.exp then (n * Nat.pow 2 x.exp.toNat, 1) else (n, Nat.pow 2 (-x.exp).toNat)
  let p := magnitudeOf n d - dps
  let (n', d') := if 0 ≤ p then (n, d * Nat.pow 10 p.toNat) else (n * Nat.pow 10 (-p).toNat, d)
  let c := (2 * n' + d') / (2 * d')
  if c == Nat.pow 10 dps then (Nat.pow 10 (dps - 1), p + 1) else (c, p)
where
  /-- The number of digits before the point; exponents of any size. -/
  magnitudeOf (n d : Nat) : Int :=
    let k : Int := (Nat.log2 n : Int) - Nat.log2 d
    climb n d 16 (k * 30103 / 100000 - 2 - k.natAbs / 1000000)

/-- The text of a number: all digits it carries, or without the zeros at the end. -/
def text (strip : Bool) (x : Rounded) : String :=
  if x.mant == 0 then "0.0"
  else
    let dps := digitsOf x.prec
    let (c, p) := x.toDigits
    let e := p + dps - 1
    let ds := (toString c).toList
    let low : Int := min (-(dps / 3 : Nat)) (-5)
    let (ds, split, e) :=
      if low < e && e < dps then
        if e < 0 then (List.replicate (-e).toNat '0' ++ ds, 1, (0 : Int))
        else (ds, e.toNat + 1, 0)
      else (ds, 1, e)
    let frac := ds.drop split
    let frac := if strip then (frac.reverse.dropWhile (· == '0')).reverse else frac
    let frac := if frac.isEmpty && strip then ['0'] else frac
    (if x.mant < 0 then "-" else "") ++ String.ofList (ds.take split) ++ "." ++
      String.ofList frac ++
      (if e == 0 then "" else if 0 < e then "e+" ++ toString e else "e" ++ toString e)

/-- The double that the text of a number denotes. -/
def printedFloat (x : Rounded) : Float :=
  if x.mant == 0 then 0
  else
    let (c, p) := x.toDigits
    scaled (x.mant < 0) c (toString c).length p

end Rounded

end Simultaneous.Algebra
