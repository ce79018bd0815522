import Simultaneous.Matrix.Inverse

/-!
A common zero of several functions: the functions by the variables they depend on, their values at a
point, and the matrix of their slopes, estimated by moving one coordinate at a time.
-/

namespace Simultaneous

/-- A function of named variables whose zero is sought. -/
structure Residual (α : Type) where
  unknowns : List String
  value : (String → Option α) → Attempt α

namespace Newton

structure Options (α : Type) where
  /-- How far a coordinate is moved to estimate a slope. -/
  epsilon : α
  /-- The largest change of a residual that ends an iteration. -/
  stopping : α
  /-- The number of steps allowed; no limit if it is not positive. -/
  maxIterations : Int
  /-- How long an iteration without limit is awaited. -/
  patience : Nat
  /-- Decimals kept in the result. -/
  roundDigits : Int
  /-- Pivots smaller than this count as zero. -/
  pivotTolerance : α

/-- The order of the variables is that of the coordinates of a point. -/
structure Problem (α : Type) where
  residuals : List (Residual α)
  unknowns : List String
  options : Options α

variable {α : Type}

/-- The coordinates of a point by name; of two coordinates of one name the later one. -/
def bindings (unknowns : List String) (point : Matrix α) (name : String) : Option α :=
  ((unknowns.zip point.firstColumn).reverse.find? (·.1 == name)).map (·.2)

/-- A point with one coordinate moved. -/
def shift [Scalar α] (epsilon : α) (k : Nat) (point : Matrix α) : Attempt (Matrix α) :=
  match point.get? k 0 with
  | none => .error (.broken (.indexOutOfRange "list"))
  | some x => .ok (point.setCell k 0 (x + epsilon))

namespace Problem

variable [Scalar α] (p : Problem α)

/-- The residuals at a point, as a column. -/
def values (point : Matrix α) : Attempt (Matrix α) := do
  let column ← Matrix.filled p.residuals.length 1 (0 : α)
  let vs ← p.residuals.mapM fun r => r.value (bindings p.unknowns point)
  return { column with cells := vs.map fun v => [v] }

/-- The slope of a residual along coordinate `k`, from its value `here`. -/
def slope (point : Matrix α) (r : Residual α) (here : α) (k : Nat) : Attempt α := do
  let moved ← shift p.options.epsilon k point
  let there ← r.value (bindings p.unknowns moved)
  match Scalar.over? (there - here) p.options.epsilon with
  | some s => return s
  | none => .error (.broken .floatDivisionByZero)

/-- The slopes of residual `i`, zero along variables that it does not contain. A residual beyond the
number of variables has no row to go to. -/
def slopes (point : Matrix α) (i : Nat) (r : Residual α) (here : α) : Attempt (List α) :=
  p.unknowns.zipIdx.mapM fun (name, k) =>
    if r.unknowns.contains name then do
      let s ← p.slope point r here k
      if i < p.unknowns.length then return s
      else .error (.broken (.indexOutOfRange "list"))
    else return 0

/-- The square matrix of slopes at a point with residuals `here`. -/
def jacobian (point : Matrix α) (here : List α) : Attempt (Matrix α) := do
  let blank ← Matrix.filled p.unknowns.length p.unknowns.length (0 : α)
  let rows ← (p.residuals.zip here).zipIdx.mapM fun ((r, v), i) => p.slopes point i r v
  return { blank with cells := rows.take blank.rows ++ blank.cells.drop rows.length }

end Problem

end Newton

end Simultaneous
