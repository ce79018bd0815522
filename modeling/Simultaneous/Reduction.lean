import Simultaneous.Failure

/-!
Which equations of an over-determined system are left out. The equations are visited in a circle;
one whose variables all occur in equations kept before it is redundant, and every other one is kept.
Equations are known here by the distinct variables they contain.
-/

namespace Simultaneous.Reduction

/-- The positions below `total` in a circle from `start`. -/
def circle (total : Nat) (start : Int) : List Nat :=
  (List.range total).map fun (k : Nat) => ((start + (k : Int)) % (total : Int)).toNat

/-- The positions whose variables are covered when they are visited; the variables of all others are
covered from then on. -/
def redundant (unknowns : Nat → List String) (covered : List String) : List Nat → List Nat
  | [] => []
  | i :: is =>
    if (unknowns i).all covered.contains then i :: redundant unknowns covered is
    else redundant unknowns (covered ++ unknowns i) is

/-- Positions in the order of a count, ties in the order they stand in. -/
def byCount (count : Nat → Nat) (bound : Nat) (is : List Nat) : List Nat :=
  (List.range (bound + 1)).flatMap fun k => is.filter (count · == k)

end Reduction

/-- The redundant positions in the order of preference, and those that are left out, ascending. -/
structure Reduction where
  candidates : List Nat
  removed : List Nat
  deriving DecidableEq, Repr

namespace Reduction

/-- The positions that are redundant when the equations are visited from `start`. -/
def found (equations : List (List String)) (start : Int) : List Nat :=
  redundant (fun i => equations.getD i []) [] (circle equations.length start)

/-- The redundant positions in the order in which they go, when `excess` of them have to. From the
start of the system those with the fewest variables go first, from elsewhere those that are visited
first. -/
def ranked (equations : List (List String)) (start excess : Int) : List Nat :=
  let is := found equations start
  if start = 0 ∧ excess < is.length then
    byCount (fun i => (equations.getD i []).length) ((equations.map List.length).foldl max 0) is
  else is

/-- Leave out redundant equations until `count` are left. -/
def of (equations : List (List String)) (count start : Int) : Except Unsolved Reduction :=
  let total := equations.length
  let excess := (total : Int) - count
  if excess ≤ 0 then .ok ⟨[], []⟩
  else if ((found equations start).length : Int) < excess then
    .error (.inconsistent excess (found equations start).length)
  else
    let is := ranked equations start excess
    .ok ⟨is, (List.range total).filter (is.take excess.toNat).contains⟩

/-- What is left of a list when positions are left out, the last of them first. -/
def without {α : Type} (removed : List Nat) (xs : List α) : List α :=
  removed.foldr (fun i ys => ys.eraseIdx i) xs

/-- Reduce a list in place: what is left of it, and what was left out. Nothing is left out when
there are not enough redundant equations. -/
def reduce {α : Type} (unknowns : α → List String) (count start : Int) (xs : List α) :
    List α × Except Unsolved Reduction :=
  match of (xs.map unknowns) count start with
  | .error u => (xs, .error u)
  | .ok r => (without r.removed xs, .ok r)

end Reduction

end Simultaneous
