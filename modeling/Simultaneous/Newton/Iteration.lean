import Simultaneous.Newton.Problem

/-!
Newton's iteration: from a point and its residuals to the zero of the linear estimate, again and
again, until no residual changes by more than the threshold or the allowed steps are used up.
-/

namespace Simultaneous.Newton

variable {α : Type}

/-- A point, its residuals, the steps taken, and the largest change of a residual in the last one.
-/
structure Iterate (α : Type) where
  point : Matrix α
  residuals : Matrix α
  steps : Nat
  change : Option α

variable [Scalar α]

/-- The largest of several sizes; the first one on a tie. -/
def largestOf : List α → α
  | [] => 0
  | x :: xs => xs.foldl (fun best y => if Scalar.less best y then y else best) x

/-- The largest change of a residual. -/
def changeBetween (after before : Matrix α) : Attempt α := do
  let d ← after.sub before
  return largestOf (d.firstColumn.map Scalar.magnitude)

/-- The failure of an iteration that has used up its steps. -/
def Iterate.exhausted (s : Iterate α) : Failure :=
  .unsolved (.noConvergence s.steps ((s.change.map Scalar.text).getD "inf"))

namespace Problem

variable (p : Problem α)

def first (point : Matrix α) : Attempt (Iterate α) := do
  let here ← p.values point
  return ⟨point, here, 0, none⟩

/-- One step: to the zero of the linear estimate. -/
def advance (s : Iterate α) : Attempt (Iterate α) := do
  let slopes ← p.jacobian s.point s.residuals.firstColumn
  let inverse ← slopes.inv p.options.pivotTolerance
  let step ← inverse.mul s.residuals
  let point ← s.point.sub step
  let residuals ← p.values point
  let change ← changeBetween residuals s.residuals
  return ⟨point, residuals, s.steps + 1, some change⟩

/-- The last change is small enough. -/
def isSettled (s : Iterate α) : Bool :=
  match s.change with
  | none => !Scalar.exceedable p.options.stopping
  | some c => !Scalar.less p.options.stopping c

/-- The steps allowed are used up. -/
def isExhausted (s : Iterate α) : Bool :=
  decide (0 < p.options.maxIterations ∧ p.options.maxIterations ≤ s.steps)

/-- Steps until the iteration settles or fails, and the number of steps begun; `fuel` bounds them.
-/
def iterate : Nat → Iterate α → Nat × Attempt (Matrix α)
  | 0, s => (s.steps, .error (.broken .endless))
  | fuel + 1, s =>
    if p.isSettled s then (s.steps, .ok s.point)
    else if p.isExhausted s then (s.steps, .error s.exhausted)
    else match p.advance s with
      | .error f => (s.steps + 1, .error f)
      | .ok s => iterate fuel s

/-- Enough fuel to use up all allowed steps; without a limit, as much as there is patience. -/
def fuel : Nat :=
  if 0 < p.options.maxIterations then p.options.maxIterations.toNat + 1 else p.options.patience

/-- The iteration from a starting point. -/
def run (start : Matrix α) : Nat × Attempt (Matrix α) :=
  match p.first start with
  | .error f => (0, .error f)
  | .ok s => p.iterate p.fuel s

end Problem

end Simultaneous.Newton
