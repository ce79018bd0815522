import Simultaneous.Algebra.Order
import Simultaneous.Algebra.Factoring

/-!
A simplifier builds sums, products, powers and calls in canonical form. Each of its rules is stated
over another simplifier, which serves the operands; stacking the rules gives the one in use.
-/

namespace Simultaneous.Algebra

structure Simplifier where
  sum : List Expr → Expr
  product : List Expr → Expr
  power : Expr → Expr → Expr
  call : Fn → Expr → Expr

namespace Simplifier

/-- Builds nodes as they are given. -/
def raw : Simplifier := ⟨Expr.rawSum, Expr.rawProduct, Expr.power, fun f x => .call f [x]⟩

def sub (s : Simplifier) (a b : Expr) : Expr := s.sum [a, b.negate]

def quotient (s : Simplifier) (a b : Expr) : Expr := s.product [a, s.power b (.ofInt (-1))]

def sqrt (s : Simplifier) (x : Expr) : Expr := s.power x (.ofRat Expr.half)

def square (s : Simplifier) (x : Expr) : Expr := s.power x 2

end Simplifier

end Simultaneous.Algebra
