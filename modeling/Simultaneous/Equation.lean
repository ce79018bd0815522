import Simultaneous.Expression

/-!
Equations: two expressions that are to have the same value.
-/

namespace Simultaneous

structure Equation where
  left : Expression
  right : Expression

namespace Equation

/-- The variables of the left side, then those of the right side that are new. -/
def unknowns (e : Equation) : List String := (e.left.unknowns ++ e.right.unknowns).eraseDups

/-- How far the left side lies above the right side. -/
def residual (e : Equation) (env : Program.Bindings) : Attempt Float := do
  let a ← e.left.evaluate env
  let b ← e.right.evaluate env
  return a - b

def text (e : Equation) : String := e.left.source ++ " = " ++ e.right.source

end Equation

end Simultaneous
