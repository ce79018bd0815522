import Simultaneous.Algebra.Simplify.Sum
import Simultaneous.Algebra.Simplify.Product
import Simultaneous.Algebra.Simplify.Power
import Simultaneous.Algebra.Simplify.Call

/-!
The rules stacked to a fixed depth, and arithmetic on expressions in canonical form.
-/

namespace Simultaneous.Algebra

namespace Simplifier

/-- All rules over one simplifier. -/
def step (s : Simplifier) : Simplifier := ⟨s.sumRule, s.productRule, s.powerRule, s.callRule⟩

/-- The rules stacked `n` high; below them nodes are built as they are given. -/
def stack : Nat → Simplifier
  | 0 => raw
  | n + 1 => (stack n).step

/-- The simplifier in use; expressions are simplified as they are built, so that few levels of rules
serve any of them. -/
def standard : Simplifier := stack 120

end Simplifier

namespace Expr

open Simplifier (standard)

def add (a b : Expr) : Expr :=
  match a, b with
  | num m, num n => num (m.add n)
  | a, b => standard.sum [a, b]

def mul (a b : Expr) : Expr :=
  match a, b with
  | num m, num n => num (m.mul n)
  | a, b => standard.product [a, b]

def pow (a b : Expr) : Expr := standard.power a b

/-- The quotient; a rational by a rational stays one, and a number other than zero by zero is the
pole. -/
def div (a b : Expr) : Expr :=
  match a, b with
  | num (.rat p), num (.rat q) => if q == 0 then if p == 0 then nan else pole else ofRat (p / q)
  | num (.real x), num (.real y) =>
    if y.isZero then mul a (pow b (ofInt (-1))) else num (.ofRounded (x.div y))
  | num (.real x), num (.rat q) =>
    if q == 0 then mul a pole else num (.ofRounded (x.div (.ofRat x.prec q)))
  | a, b => if a.isOne then pow b (ofInt (-1)) else mul a (pow b (ofInt (-1)))

def sub (a b : Expr) : Expr := add a b.negate

def apply (f : Fn) (x : Expr) : Expr := standard.call f x

/-- The logarithm to a base. -/
def logBase (x b : Expr) : Expr := standard.logarithm x b

end Expr

end Simultaneous.Algebra
