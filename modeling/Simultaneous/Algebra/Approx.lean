import Simultaneous.Algebra.Expr
import Simultaneous.Decimal.Gamma

/-!
Approximate complex values of expressions without symbols. They settle the questions that automatic
simplification asks of a constant: whether it is real, and which sign it has.
-/

namespace Simultaneous.Algebra

structure Approx where
  re : Float
  im : Float
  deriving Repr

namespace Approx

def ofReal (x : Float) : Approx := ⟨x, 0⟩

def add (a b : Approx) : Approx := ⟨a.re + b.re, a.im + b.im⟩

def mul (a b : Approx) : Approx :=
  if b.im == 0 then ⟨a.re * b.re, a.im * b.re⟩
  else if a.im == 0 then ⟨a.re * b.re, a.re * b.im⟩
  else ⟨a.re * b.re - a.im * b.im, a.re * b.im + a.im * b.re⟩

def hypot (x y : Float) : Float :=
  let x := x.abs
  let y := y.abs
  let big := max x y
  let small := min x y
  if big == 0 then 0 else
    let r := small / big
    big * Float.sqrt (1 + r * r)

def size (a : Approx) : Float := if a.im == 0 then a.re.abs else hypot a.re a.im

def angle (a : Approx) : Float := Float.atan2 a.im a.re

def neg (a : Approx) : Approx := ⟨-a.re, -a.im⟩

def inv (a : Approx) : Approx :=
  if a.im == 0 then ⟨1 / a.re, 0⟩
  else if a.re == 0 then ⟨0, -1 / a.im⟩
  else
    let d := a.re * a.re + a.im * a.im
    ⟨a.re / d, -a.im / d⟩

def exp (a : Approx) : Approx :=
  let r := Float.exp a.re
  if a.im == 0 then ⟨r, 0⟩ else ⟨r * Float.cos a.im, r * Float.sin a.im⟩

def log (a : Approx) : Approx :=
  if a.im == 0 && 0 ≤ a.re then ⟨Float.log a.re, 0⟩ else ⟨Float.log a.size, a.angle⟩

def isWhole (x : Float) : Bool := x == x.floor

def pow (a b : Approx) : Approx :=
  if b.im == 0 && a.im == 0 && (0 ≤ a.re || isWhole b.re) then ⟨Float.pow a.re b.re, 0⟩
  else if b.im == 0 && b.re == 0.5 && a.im == 0 then ⟨0, Float.sqrt (-a.re)⟩
  else if b.im == 0 && b.re == 2 then mul a a
  else (mul b a.log).exp

def sqrt (a : Approx) : Approx := pow a ⟨0.5, 0⟩

def timesI (a : Approx) : Approx := ⟨-a.im, a.re⟩

def sin (a : Approx) : Approx :=
  if a.im == 0 then ⟨Float.sin a.re, 0⟩
  else ⟨Float.sin a.re * Float.cosh a.im, Float.cos a.re * Float.sinh a.im⟩

def cos (a : Approx) : Approx :=
  if a.im == 0 then ⟨Float.cos a.re, 0⟩
  else ⟨Float.cos a.re * Float.cosh a.im, -(Float.sin a.re * Float.sinh a.im)⟩

def div (a b : Approx) : Approx := if a.im == 0 && b.im == 0 then ⟨a.re / b.re, 0⟩ else mul a b.inv

def tan (a : Approx) : Approx :=
  if a.im == 0 then ⟨Float.tan a.re, 0⟩ else div a.sin a.cos

def sinh (a : Approx) : Approx :=
  if a.im == 0 then ⟨Float.sinh a.re, 0⟩ else neg (timesI (sin (timesI a)))

def cosh (a : Approx) : Approx :=
  if a.im == 0 then ⟨Float.cosh a.re, 0⟩ else cos (timesI a)

def tanh (a : Approx) : Approx :=
  if a.im == 0 then ⟨Float.tanh a.re, 0⟩ else div a.sinh a.cosh

def one : Approx := ⟨1, 0⟩

/-- The principal arc sine; on the cuts beyond one it is taken from above. -/
def asin (a : Approx) : Approx :=
  if a.im == 0 && a.re.abs ≤ 1 then ⟨Float.asin a.re, 0⟩
  else if a.im == 0 then
    let r := Float.log (a.re.abs + Float.sqrt (a.re * a.re - 1))
    if 0 < a.re then ⟨Decimal.halfTurn / 2, r⟩ else ⟨-Decimal.halfTurn / 2, r⟩
  else neg (timesI (log (add (timesI a) (sqrt (add one (neg (mul a a)))))))

def acos (a : Approx) : Approx :=
  if a.im == 0 && a.re.abs ≤ 1 then ⟨Float.acos a.re, 0⟩
  else add ⟨Decimal.halfTurn / 2, 0⟩ (neg a.asin)

def atan (a : Approx) : Approx :=
  if a.im == 0 then ⟨Float.atan a.re, 0⟩
  else
    let p := log (add one (neg (timesI a)))
    let m := log (add one (timesI a))
    let d := add p (neg m)
    ⟨-d.im / 2, d.re / 2⟩

end Approx

def Fn.approx (f : Fn) (a : Approx) : Option Approx :=
  match f with
  | .abs => some ⟨a.size, 0⟩
  | .exp => some a.exp
  | .log => some a.log
  | .sin => some a.sin
  | .cos => some a.cos
  | .tan => some a.tan
  | .asin => some a.asin
  | .acos => some a.acos
  | .atan => some a.atan
  | .sinh => some a.sinh
  | .cosh => some a.cosh
  | .tanh => some a.tanh
  | .factorial => if a.im == 0 then some ⟨Decimal.gamma (a.re + 1), 0⟩ else none
  | .named "cot" => some a.tan.inv
  | .named _ => none

def Constant.approx : Constant → Approx
  | .e => ⟨2.718281828459045, 0⟩
  | .pi => ⟨Decimal.halfTurn, 0⟩
  | .i => ⟨0, 1⟩

namespace Expr

mutual

def approx : Expr → Option Approx
  | num n => if n.isFinite then some ⟨n.toFloat, 0⟩ else none
  | sym _ => none
  | const c => some c.approx
  | sum xs => approxSum xs
  | product xs => approxProduct xs
  | power b x => match b.approx, x.approx with
    | some b, some x => some (b.pow x)
    | _, _ => none
  | call f [x] => x.approx.bind f.approx
  | call _ _ => none

def approxSum : List Expr → Option Approx
  | [] => some ⟨0, 0⟩
  | x :: xs => match x.approx, approxSum xs with
    | some a, some b => some (a.add b)
    | _, _ => none

def approxProduct : List Expr → Option Approx
  | [] => some ⟨1, 0⟩
  | x :: xs => match x.approx, approxProduct xs with
    | some a, some b => some (a.mul b)
    | _, _ => none

end

/-- What is known about the value of a constant. -/
inductive Sign
  | negative
  | zero
  | positive
  | notReal
  deriving DecidableEq, Repr

/-- The sign of an approximate value; nothing is known of one too close to zero or to the reals. -/
def signOf (a : Approx) : Option Sign :=
  if a.im.abs ≤ 1e-13 * a.re.abs then
    if a.re.abs ≤ 1e-12 && a.re != 0 then none
    else if a.re < 0 then some .negative
    else if 0 < a.re then some .positive
    else if a.re == 0 then some .zero
    else none
  else if 1e-9 * a.re.abs < a.im.abs then some .notReal
  else none

/-- The sign of an expression without symbols, as far as it is known. -/
def sign? : Expr → Option Sign
  | num n =>
    if n.isZero then some .zero
    else if n.isNegative then some .negative
    else if n.isPositive then some .positive
    else none
  | x => x.approx.bind signOf

def isNegativeConst (x : Expr) : Bool := x.sign? == some .negative

def isPositiveConst (x : Expr) : Bool := x.sign? == some .positive

def isRealConst (x : Expr) : Bool :=
  match x.sign? with
  | some .notReal | none => false
  | _ => true

mutual

/-- Known to be real whatever the symbols stand for. -/
def isReal : Expr → Bool
  | num n => n.isFinite
  | sym _ => false
  | const c => c != .i
  | sum xs => allReal xs
  | product xs => allReal xs
  | power b x => (power b x).isRealConst || match x with
    | num (.rat q) => b.isReal && q.den == 1 && 0 ≤ q
    | _ => false
  | call .abs _ => true
  | call f [x] => match f with
    | .exp | .sin | .cos | .atan | .sinh | .cosh | .tanh => x.isReal
    | f => (call f [x]).isRealConst
  | call _ _ => false

def allReal : List Expr → Bool
  | [] => true
  | x :: xs => x.isReal && allReal xs

end

mutual

/-- Known to be real and not negative. -/
def isNonneg : Expr → Bool
  | num n => n.isZero || n.isPositive
  | sym _ => false
  | const c => c != .i
  | sum xs => allNonneg xs || (sum xs).isPositiveConst
  | product xs => allNonneg xs || (product xs).isPositiveConst
  | power b x => (b.isNonneg && x.isRealConst && !x.hasSymbol &&
      (!x.isNegativeConst || b.isPositiveConst)) ||
    (match x with
      | num (.rat q) => q.den == 1 && q.num % 2 == 0 && 0 ≤ q && b.isReal
      | _ => false) || (power b x).isPositiveConst
  | call .abs _ => true
  | call .exp [x] => x.isReal
  | call .cosh [x] => x.isReal
  | call f xs => (call f xs).isPositiveConst

def allNonneg : List Expr → Bool
  | [] => true
  | x :: xs => x.isNonneg && allNonneg xs

end

end Expr

end Simultaneous.Algebra
