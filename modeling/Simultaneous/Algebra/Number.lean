import Simultaneous.Algebra.Rounded

/-!
The numbers of expressions: exact rationals, rounded numbers, and the values outside the reals.
Arithmetic with a rounded number is rounded, except that a result of zero is exact.
-/

namespace Simultaneous.Algebra

inductive Number
  | rat (q : Rat)
  | real (x : Rounded)
  | infinite (neg : Bool)
  /-- Infinity without direction. -/
  | pole
  | undefined
  deriving DecidableEq, Repr

namespace Number

instance : Inhabited Number := ⟨rat 0⟩

instance (n : Nat) : OfNat Number n := ⟨rat n⟩

def ofInt (n : Int) : Number := rat n

/-- A computed rounded number; zero becomes exact. -/
def ofRounded (x : Rounded) : Number := if x.isZero then 0 else real x

def isZero : Number → Bool
  | rat q => q == 0
  | real x => x.isZero
  | _ => false

def isOne (n : Number) : Bool := n == 1

def isRat : Number → Bool
  | rat _ => true
  | _ => false

def isReal : Number → Bool
  | real _ => true
  | _ => false

def isInt : Number → Bool
  | rat q => q.den == 1
  | _ => false

def toInt? : Number → Option Int
  | rat q => if q.den == 1 then some q.num else none
  | _ => none

def isNegative : Number → Bool
  | rat q => q < 0
  | real x => x.isNegative
  | infinite neg => neg
  | _ => false

def isPositive : Number → Bool
  | rat q => 0 < q
  | real x => 0 < x.mant
  | infinite neg => !neg
  | _ => false

def isFinite : Number → Bool
  | rat _ | real _ => true
  | _ => false

def neg : Number → Number
  | rat q => rat (-q)
  | real x => real x.neg
  | infinite b => infinite !b
  | pole => pole
  | undefined => undefined

def add : Number → Number → Number
  | rat p, rat q => rat (p + q)
  | rat p, real y => ofRounded (.add (.ofRat y.prec p) y)
  | real x, rat q => ofRounded (.add x (.ofRat x.prec q))
  | real x, real y => ofRounded (.add x y)
  | infinite a, infinite b => if a == b then infinite a else undefined
  | undefined, _ | _, undefined => undefined
  | pole, pole | pole, infinite _ | infinite _, pole => undefined
  | pole, _ | _, pole => pole
  | infinite a, _ | _, infinite a => infinite a

def mul : Number → Number → Number
  | rat p, rat q => rat (p * q)
  | rat p, real y => if p == 0 then 0 else ofRounded (.mul (.ofRat y.prec p) y)
  | real x, rat q => if q == 0 then 0 else ofRounded (.mul x (.ofRat x.prec q))
  | real x, real y => ofRounded (.mul x y)
  | undefined, _ | _, undefined => undefined
  | pole, y => if y.isZero then undefined else pole
  | x, pole => if x.isZero then undefined else pole
  | infinite a, y => if y.isZero then undefined else infinite (a != y.isNegative)
  | x, infinite b => if x.isZero then undefined else infinite (b != x.isNegative)

def abs : Number → Number
  | rat q => rat (if q < 0 then -q else q)
  | real x => real x.abs
  | infinite _ | pole => infinite false
  | undefined => undefined

/-- The exact value of a finite number. -/
def toRat? : Number → Option Rat
  | rat q => some q
  | real x => some x.toRat
  | _ => none

def lt (a b : Number) : Bool :=
  match a, b with
  | infinite true, infinite true => false
  | infinite true, _ => true
  | _, infinite true => false
  | infinite false, _ => false
  | _, infinite false => true
  | _, _ => match a.toRat?, b.toRat? with
    | some p, some q => p < q
    | _, _ => false

/-- The integer part toward minus infinity of a finite number. -/
def floor? (a : Number) : Option Int := a.toRat?.map Rat.floor

/-- A finite number as a double. -/
def toFloat : Number → Float
  | rat q => Decimal.nearestRat q
  | real x => x.toFloat
  | infinite neg => Decimal.infinity neg
  | _ => 0.0 / 0.0

end Number

end Simultaneous.Algebra
