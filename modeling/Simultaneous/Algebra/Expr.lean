import Simultaneous.Algebra.Number
import Simultaneous.Algebra.Sorting

/-!
Expression trees, and the structural order in which sums and products keep their operands: by kind
of node, then by number of operands, then operand by operand.
-/

namespace Simultaneous.Algebra

inductive Constant
  | e
  | pi
  | i
  deriving DecidableEq, Repr

/-- Functions with rules of their own, and any other by its name. -/
inductive Fn
  | abs | exp | log | sin | cos | tan | asin | acos | atan | sinh | cosh | tanh | factorial
  | named (name : String)
  deriving DecidableEq, Repr

inductive Expr
  | num (n : Number)
  | sym (name : String)
  | const (c : Constant)
  | sum (terms : List Expr)
  | product (factors : List Expr)
  | power (base exponent : Expr)
  | call (f : Fn) (args : List Expr)
  deriving Inhabited

def Constant.className : Constant → String
  | e => "Exp1"
  | pi => "Pi"
  | i => "ImaginaryUnit"

def Fn.name : Fn → String
  | abs => "Abs"
  | exp => "exp"
  | log => "log"
  | sin => "sin"
  | cos => "cos"
  | tan => "tan"
  | asin => "asin"
  | acos => "acos"
  | atan => "atan"
  | sinh => "sinh"
  | cosh => "cosh"
  | tanh => "tanh"
  | factorial => "factorial"
  | named n => n

def Number.className : Number → String
  | .rat q =>
    if q == 0 then "Zero" else if q == 1 then "One" else if q == -1 then "NegativeOne"
    else if q == mkRat 1 2 then "Half" else if q.den == 1 then "Integer" else "Rational"
  | .real _ => "Float"
  | .infinite false => "Infinity"
  | .infinite true => "NegativeInfinity"
  | .pole => "ComplexInfinity"
  | .undefined => "NaN"

namespace Expr

instance (n : Nat) : OfNat Expr n := ⟨num (.rat n)⟩

def ofRat (q : Rat) : Expr := num (.rat q)

def ofInt (n : Int) : Expr := num (.ofInt n)

def half : Rat := mkRat 1 2

def nan : Expr := num .undefined

def pole : Expr := num .pole

def pi : Expr := const .pi

def e : Expr := const .e

def i : Expr := const .i

/-- The name of the kind of a node. -/
def className : Expr → String
  | num n => n.className
  | sym _ => "Symbol"
  | const c => c.className
  | sum _ => "Add"
  | product _ => "Mul"
  | power _ _ => "Pow"
  | call f _ => f.name

/-- Kinds that have a fixed place, in that order; all others come after them by name. -/
def rankedKinds : List String := [
  "Zero", "One", "Half", "Infinity", "NaN", "NegativeOne", "NegativeInfinity", "Integer",
  "Rational", "Float", "Exp1", "Pi", "ImaginaryUnit", "Symbol", "Wild", "Temporary", "Pow", "Mul",
  "Add", "Derivative", "Integral", "Abs", "Sign", "Sqrt", "Floor", "Ceiling", "Re", "Im", "Arg",
  "Conjugate", "Exp", "Log", "Sin", "Cos", "Tan", "Cot", "ACos", "ASin", "ATan", "ACot",
  "RisingFactorial", "FallingFactorial", "Factorial", "Binomial", "Gamma", "LowerGamma",
  "UpperGamma", "PolyGamma", "Erf", "Chebyshev", "Chebyshev2", "Function", "WildFunction", "Lambda",
  "Order", "Equality", "Unequality", "StrictGreaterThan", "StrictLessThan", "GreaterThan",
  "LessThan"]

def kindRank : Expr → Nat
  | num n => rankedKinds.idxOf n.className
  | sym _ => 13
  | const .e => 10
  | const .pi => 11
  | const .i => 12
  | power _ _ => 16
  | product _ => 17
  | sum _ => 18
  | call .abs _ => 21
  | call (.named n) _ => rankedKinds.idxOf n
  | call _ _ => 61

def compareNames (a b : String) : Ordering := compare a b

def compareKinds (a b : Expr) : Ordering :=
  match compare a.kindRank b.kindRank with
  | .eq => if a.kindRank == rankedKinds.length then compareNames a.className b.className else .eq
  | o => o

def compareRounded (x y : Rounded) : Ordering :=
  match compare (x.mant < 0 : Bool) (y.mant < 0 : Bool) with
  | .eq => match compare x.mant.natAbs y.mant.natAbs with
    | .eq => match compare x.exp y.exp with
      | .eq => compare x.prec y.prec
      | o => o
    | o => o
  | o => o

def compareNumbers : Number → Number → Ordering
  | .rat p, .rat q => match compare p.num q.num with
    | .eq => compare p.den q.den
    | o => o
  | .real x, .real y => compareRounded x y
  | _, _ => .eq

mutual

/-- The structural order. -/
def order : Expr → Expr → Ordering
  | num a, num b => match compareKinds (num a) (num b) with
    | .eq => compareNumbers a b
    | o => o
  | sym a, sym b => compareNames a b
  | sum as, sum bs => match compare as.length bs.length with
    | .eq => orderAll as bs
    | o => o
  | product as, product bs => match compare as.length bs.length with
    | .eq => orderAll as bs
    | o => o
  | power a x, power b y => match order a b with
    | .eq => order x y
    | o => o
  | call f as, call g bs => match compareKinds (call f as) (call g bs) with
    | .eq => match compare as.length bs.length with
      | .eq => orderAll as bs
      | o => o
    | o => o
  | a, b => compareKinds a b

def orderAll : List Expr → List Expr → Ordering
  | a :: as, b :: bs => match order a b with
    | .eq => orderAll as bs
    | o => o
  | _, _ => .eq

end

/-- Structural equality. -/
def same (a b : Expr) : Bool := order a b == .eq

instance : BEq Expr := ⟨same⟩

def sorted (xs : List Expr) : List Expr := sortBy (fun a b => order a b == .lt) xs

def operands : Expr → List Expr
  | sum xs | product xs | call _ xs => xs
  | power b x => [b, x]
  | _ => []

mutual

def hasSymbol : Expr → Bool
  | sym _ => true
  | sum xs | product xs | call _ xs => anyHasSymbol xs
  | power b x => b.hasSymbol || x.hasSymbol
  | _ => false

def anyHasSymbol : List Expr → Bool
  | [] => false
  | x :: xs => x.hasSymbol || anyHasSymbol xs

end

mutual

/-- The names of symbols in order of occurrence, with repetitions. -/
def symbols : Expr → List String
  | sym n => [n]
  | sum xs | product xs | call _ xs => symbolsOf xs
  | power b x => b.symbols ++ x.symbols
  | _ => []

def symbolsOf : List Expr → List String
  | [] => []
  | x :: xs => x.symbols ++ symbolsOf xs

end

/-- The number in front of a product, and the rest; the pole does not count as a number. -/
def coefficient : Expr → Number × Expr
  | num .pole => (1, num .pole)
  | product (num .pole :: xs) => (1, product (num .pole :: xs))
  | num n => (n, 1)
  | product (num n :: xs) => match xs with
    | [x] => (n, x)
    | xs => (n, product xs)
  | x => (1, x)

/-- The factors of a product, or the expression itself. -/
def factors : Expr → List Expr
  | product xs => xs
  | x => [x]

/-- The terms of a sum, or the expression itself. -/
def terms : Expr → List Expr
  | sum xs => xs
  | x => [x]

/-- A product of given factors as they are. -/
def rawProduct : List Expr → Expr
  | [] => 1
  | [x] => x
  | xs => product xs

def rawSum : List Expr → Expr
  | [] => 0
  | [x] => x
  | xs => sum xs

/-- The base and exponent of a power; a unit fraction counts as a negative power, and an exponential
as a power of e. -/
def baseExp : Expr → Expr × Expr
  | power (num (.rat q)) x =>
    if q.num == 1 && q.den != 1 then
      (ofInt q.den, match x with
        | num n => num n.neg
        | product (num n :: xs) =>
          if n.neg == 1 then rawProduct xs else product (num n.neg :: xs)
        | sum _ => product [ofInt (-1), x]
        | x => product [ofInt (-1), x])
    else (num (.rat q), x)
  | power b x => (b, x)
  | call .exp [x] => (e, x)
  | x => (x, 1)

def rat? : Expr → Option Rat
  | num (.rat q) => some q
  | _ => none

def isNum : Expr → Bool
  | num _ => true
  | _ => false

/-- The number one, exactly. -/
def isOne : Expr → Bool
  | num (.rat q) => q == 1
  | _ => false

/-- The number zero, exactly. -/
def isZero : Expr → Bool
  | num (.rat q) => q == 0
  | _ => false

def isSum : Expr → Bool
  | sum _ => true
  | _ => false

def isProduct : Expr → Bool
  | product _ => true
  | _ => false

def isPower : Expr → Bool
  | power _ _ => true
  | _ => false

def isE : Expr → Bool
  | const .e => true
  | _ => false

def isPi : Expr → Bool
  | const .pi => true
  | _ => false

def isI : Expr → Bool
  | const .i => true
  | _ => false

def isAtom : Expr → Bool
  | num _ | sym _ | const _ => true
  | _ => false

/-- Operands of a sum or product in their order, the number in front. -/
def arranged (xs : List Expr) : List Expr := xs.filter isNum ++ sorted (xs.filter (!·.isNum))

/-- The same expression with its leading number multiplied by a rational other than zero. -/
def scale (q : Rat) : Expr → Expr
  | num n => num ((Number.rat q).mul n)
  | product (num .pole :: xs) => product (num .pole :: xs)
  | product (num n :: xs) =>
    let m := (Number.rat q).mul n
    if m.isOne then rawProduct xs else product (num m :: xs)
  | product xs => if q == 1 then product xs else product (ofRat q :: xs)
  | x => if q == 1 then x else product [ofRat q, x]

/-- Multiply every term by a rational other than zero. -/
def distribute (q : Rat) (ts : List Expr) : Expr := sum (arranged (ts.map (scale q)))

/-- The expression with the opposite sign. -/
def negate : Expr → Expr
  | sum ts => distribute (-1) ts
  | x => x.scale (-1)

mutual

/-- The levels of nodes. -/
def height : Expr → Nat
  | sum xs | product xs | call _ xs => heightOf xs + 1
  | power b x => max b.height x.height + 1
  | _ => 0

def heightOf : List Expr → Nat
  | [] => 0
  | x :: xs => max x.height (heightOf xs)

end

end Expr

end Simultaneous.Algebra
