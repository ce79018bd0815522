import Simultaneous.Formula.Datum
import Simultaneous.Settings

/-!
Which expressions are admitted: limits on nodes and depth, and a list of functions. The nodes are
visited before their operands from left to right, and the first one that offends decides.
-/

namespace Simultaneous.Formula

open Algebra

/-- The names of functions that an equation may contain. -/
def allowedNames : List String := [
  "pi", "E", "sqrt", "sin", "cos", "tan", "asin", "acos", "atan", "sinh", "cosh", "tanh", "log",
  "ln", "exp", "Abs", "abs", "factorial"]

/-- One node, by what it is. -/
def acceptKind : Tree → Except Refusal Unit
  | .atom | .compound _ => .ok ()
  | .call name _ =>
    if allowedNames.contains name then .ok () else .error (.forbiddenFunction name)
  | .foreign kind => .error (.notScalarKind kind)

/-- One node, by the number of nodes visited before it, its depth, and what it is. -/
def acceptNode (limits : Settings) (depth count : Nat) (t : Tree) : Except Refusal Unit :=
  if limits.maxNodes < (count : Int) + 1 then .error (.tooComplex limits.maxNodes)
  else if limits.maxDepth < (depth : Int) then .error (.tooDeep limits.maxDepth)
  else acceptKind t

mutual

/-- Visit a tree; the result is the number of nodes visited so far. -/
def accept (limits : Settings) (depth count : Nat) : Tree → Except Refusal Nat
  | .call name ts => do
    acceptNode limits depth count (.call name ts)
    acceptAll limits (depth + 1) (count + 1) ts
  | .compound ts => do
    acceptNode limits depth count (.compound ts)
    acceptAll limits (depth + 1) (count + 1) ts
  | t => do
    acceptNode limits depth count t
    return count + 1

def acceptAll (limits : Settings) (depth count : Nat) : List Tree → Except Refusal Nat
  | [] => .ok count
  | t :: ts => do
    let count ← accept limits depth count t
    acceptAll limits depth count ts

end

/-- The expression that a datum is, when it is one and is admitted. -/
def acceptDatum (limits : Settings) (d : Datum) : Except Refusal Expr := do
  let _ ← accept limits 0 0 d.tree
  match d with
  | .expr e => .ok e
  | d => .error (.notScalarKind d.kind)

end Simultaneous.Formula
