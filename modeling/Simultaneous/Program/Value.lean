import Simultaneous.Literal.Basic

/-!
Arithmetic on whole numbers of any size, doubles and complex numbers. Whole numbers stay exact until
they meet another kind; what has no value fails with the reason.
-/

namespace Simultaneous.Program

inductive Value
  | whole (n : Int)
  | real (x : Float)
  | complex (re im : Float)
  deriving Inhabited, Repr

inductive Fault
  | quotientByZero
  | realByZero
  | complexByZero
  | zeroToNegative
  | zeroToComplex
  | powerTooLarge
  | complexPowerTooLarge
  | outsideDomain
  | outsideRange
  | notReal
  | wholeTooLarge
  | quotientTooLarge
  | notWhole (kind : String)
  | negativeFactorial
  | hugeFactorial
  | notCallable (kind : String)
  | complexResult (re im : Float)
  deriving DecidableEq, Repr

/-- A complex number in parentheses; without its real part if that is a positive zero. -/
def complexText (re im : Float) : String :=
  if re.toBits == 0 then Decimal.brief im ++ "j"
  else
    let s := Decimal.brief im
    "(" ++ Decimal.brief re ++ (if s.startsWith "-" then "" else "+") ++ s ++ "j)"

def Fault.message : Fault → String
  | quotientByZero => "division by zero"
  | realByZero => "float division by zero"
  | complexByZero => "complex division by zero"
  | zeroToNegative => "0.0 cannot be raised to a negative power"
  | zeroToComplex => "0.0 to a negative or complex power"
  | powerTooLarge => "(34, 'Numerical result out of range')"
  | complexPowerTooLarge => "complex exponentiation"
  | outsideDomain => "math domain error"
  | outsideRange => "math range error"
  | notReal => "must be real number, not complex"
  | wholeTooLarge => "int too large to convert to float"
  | quotientTooLarge => "integer division result too large for a float"
  | notWhole kind => "'" ++ kind ++ "' object cannot be interpreted as an integer"
  | negativeFactorial => "factorial() not defined for negative values"
  | hugeFactorial => "factorial() argument should not exceed 9223372036854775807"
  | notCallable kind => "'" ++ kind ++ "' object is not callable"
  | complexResult re im => "complex result " ++ complexText re im

abbrev Outcome := Except Fault

namespace Value

def kind : Value → String
  | whole _ => "int"
  | real _ => "float"
  | complex _ _ => "complex"

def toReal : Value → Outcome Float
  | whole n => match Decimal.ofInt? n with
    | some x => .ok x
    | none => .error .wholeTooLarge
  | real x => .ok x
  | complex _ _ => .error .notReal

/-- The two coordinates. -/
def toComplex : Value → Outcome (Float × Float)
  | complex a b => .ok (a, b)
  | v => do
    let x ← v.toReal
    return (x, 0)

/-- An operation by the kinds of its operands, each brought to the wider of the two. -/
def combine (onWhole : Int → Int → Outcome Value) (onReal : Float → Float → Outcome Value)
    (onComplex : Float × Float → Float × Float → Outcome Value) (a b : Value) : Outcome Value :=
  match a, b with
  | whole m, whole n => onWhole m n
  | complex x y, b => do
    let q ← b.toComplex
    onComplex (x, y) q
  | a, complex x y => do
    let p ← a.toComplex
    onComplex p (x, y)
  | a, b => do
    let x ← a.toReal
    let y ← b.toReal
    onReal x y

def add : Value → Value → Outcome Value :=
  combine (fun m n => .ok (whole (m + n))) (fun x y => .ok (real (x + y)))
    (fun a b => .ok (complex (a.1 + b.1) (a.2 + b.2)))

def sub : Value → Value → Outcome Value :=
  combine (fun m n => .ok (whole (m - n))) (fun x y => .ok (real (x - y)))
    (fun a b => .ok (complex (a.1 - b.1) (a.2 - b.2)))

def timesPair (a b : Float × Float) : Float × Float :=
  (a.1 * b.1 - a.2 * b.2, a.1 * b.2 + a.2 * b.1)

def mul : Value → Value → Outcome Value :=
  combine (fun m n => .ok (whole (m * n))) (fun x y => .ok (real (x * y)))
    (fun a b => let p := timesPair a b; .ok (complex p.1 p.2))

/-- The quotient of complex numbers, scaled by the larger coordinate of the divisor. -/
def quotientPair (a b : Float × Float) : Float × Float :=
  if b.2.abs ≤ b.1.abs then
    let r := b.2 / b.1
    let d := b.1 + b.2 * r
    ((a.1 + a.2 * r) / d, (a.2 - a.1 * r) / d)
  else
    let r := b.1 / b.2
    let d := b.1 * r + b.2
    ((a.1 * r + a.2) / d, (a.2 * r - a.1) / d)

def isZeroPair (a : Float × Float) : Bool := a.1 == 0 && a.2 == 0

def quotientWhole (m n : Int) : Outcome Value :=
  if n == 0 then .error .quotientByZero
  else
    let x := Decimal.nearest ((m < 0) != (n < 0) && m != 0) m.natAbs n.natAbs
    if x.isInf then .error .quotientTooLarge else .ok (real x)

def div : Value → Value → Outcome Value :=
  combine quotientWhole (fun x y => if y == 0 then .error .realByZero else .ok (real (x / y)))
    (fun a b => if isZeroPair b then .error .complexByZero
      else let p := quotientPair a b; .ok (complex p.1 p.2))

/-- Repeated squaring; `fuel` bounds the bits of the exponent. -/
def powerPair : Nat → Float × Float → Float × Float → Nat → Float × Float
  | 0, _, acc, _ => acc
  | fuel + 1, base, acc, n =>
    if n == 0 then acc
    else powerPair fuel (timesPair base base) (if n % 2 == 1 then timesPair acc base else acc)
      (n / 2)

def magnitudePair (a : Float × Float) : Float :=
  let x := a.1.abs
  let y := a.2.abs
  let big := if x < y then y else x
  let small := if x < y then x else y
  if big == 0 then 0 else if big.isInf then big else
    let r := small / big
    big * Float.sqrt (1 + r * r)

def polarPower (a b : Float × Float) : Float × Float :=
  let size := magnitudePair a
  let angle := Float.atan2 a.2 a.1
  let len := Float.pow size b.1
  let phase := angle * b.1
  let len := if b.2 == 0 then len else len / Float.exp (angle * b.2)
  let phase := if b.2 == 0 then phase else phase + b.2 * Float.log size
  (len * Float.cos phase, len * Float.sin phase)

def complexPower (a b : Float × Float) : Outcome Value :=
  if isZeroPair b then .ok (complex 1 0)
  else
    let small := b.2 == 0 && b.1 == b.1.floor && b.1.abs ≤ 100
    if isZeroPair a && (b.2 != 0 || b.1 < 0) then .error .zeroToComplex
    else if isZeroPair a then .ok (complex 0 0)
    else
      let n := b.1.abs.toUInt64.toNat
      let p :=
        if small then
          let p := powerPair 8 a (1, 0) n
          if 0 < b.1 then p else quotientPair (1, 0) p
        else polarPower a b
      if p.1.isInf || p.2.isInf then .error .complexPowerTooLarge else .ok (complex p.1 p.2)

def realPower (x y : Float) : Outcome Value :=
  if y == 0 then .ok (real 1)
  else if x.isNaN then .ok (real x)
  else if y.isNaN then .ok (real (if x == 1 then 1 else y))
  else if x == 0 && y < 0 then .error .zeroToNegative
  else if x < 0 && x.isFinite && y.isFinite && y != y.floor then complexPower (x, 0) (y, 0)
  else if x == -1 && y.isInf then .ok (real 1)
  else
    let z := Float.pow x y
    if z.isInf && x.isFinite && y.isFinite then .error .powerTooLarge else .ok (real z)

def wholePower (m n : Int) : Outcome Value :=
  if 0 ≤ n then .ok (whole (Int.pow m n.toNat))
  else do
    let x ← (whole m).toReal
    let y ← (whole n).toReal
    realPower x y

def pow : Value → Value → Outcome Value := combine wholePower realPower complexPower

def neg : Value → Value
  | whole n => whole (-n)
  | real x => real (-x)
  | complex a b => complex (-a) (-b)

def abs : Value → Value
  | whole n => whole n.natAbs
  | real x => real x.abs
  | complex a b => real (magnitudePair (a, b))

/-- A function on doubles that is undefined at infinities and where it gives no number. -/
def onReals (f : Float → Float) (v : Value) : Outcome Value := do
  let x ← v.toReal
  let y := f x
  if y.isNaN && !x.isNaN then .error .outsideDomain
  else if y.isInf && x.isFinite then .error .outsideRange
  else .ok (real y)

/-- The natural logarithm; whole numbers may exceed the doubles. -/
def log (v : Value) : Outcome Value :=
  match v with
  | whole n =>
    if n ≤ 0 then .error .outsideDomain
    else match Decimal.ofInt? n with
      | some x => .ok (real (Float.log x))
      | none =>
        let k := Nat.log2 n.natAbs - 60
        .ok (real (Float.log (Float.ofNat (n.natAbs / Nat.pow 2 k)) +
          0.6931471805599453 * Float.ofNat k))
  | v => do
    let x ← v.toReal
    if x.isNaN then .ok (real x)
    else if x ≤ 0 then .error .outsideDomain
    else .ok (real (Float.log x))

def product (low : Nat) : Nat → Nat
  | 0 => 1
  | n + 1 => (low + n) * product low n

/-- A product of neighbours by halves; `fuel` bounds the halvings. -/
def productTree : Nat → Nat → Nat → Nat
  | 0, low, count => product low count
  | fuel + 1, low, count =>
    if count ≤ 8 then product low count
    else productTree fuel low (count / 2) * productTree fuel (low + count / 2) (count - count / 2)

def factorial (v : Value) : Outcome Value :=
  match v with
  | whole n =>
    if n < 0 then .error .negativeFactorial
    else if 9223372036854775807 < n then .error .hugeFactorial
    else .ok (whole (productTree 64 1 n.natAbs))
  | v => .error (.notWhole v.kind)

end Value

/-- A value as a number of a request. -/
def Value.ofLiteral? : Literal → Option Value
  | .int n => some (.whole n)
  | .float x => some (.real x)
  | .bool b => some (.whole (if b then 1 else 0))
  | _ => none

end Simultaneous.Program
