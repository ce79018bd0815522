import Simultaneous.Program.Compile
import Simultaneous.Proofs.Algebra.Leaves

/-!
The value of a tree by itself. Its symbols and constants are read as they are, with no names in
between; terms and factors go in the order of writing, since sums of doubles depend on it.
-/

namespace Simultaneous.Program

open Algebra Algebra.Expr

variable {x y : Expr} {fs : List Expr}

/-- The factors of a product that are written above the bar. -/
def above (fs : List Expr) : List Expr := (signedFactors fs).2.filter fun f => (inverted? f).isNone

/-- The factors below the bar. -/
def below (fs : List Expr) : List Expr := (signedFactors fs).2.filterMap inverted?

theorem below_of_mem_signedFactors (h : x ∈ (signedFactors fs).2) : Below x fs := by
  unfold signedFactors at h
  split at h
  · exact below_of_mem_scale (orderedFactors_subset _ h)
  · exact .of_mem (orderedFactors_subset _ h)

theorem below_of_inverted? (h : inverted? x = some y) : Below y [x] := by
  unfold inverted? at h
  split at h
  next b q =>
    have hb : Below b [power b (num (.rat q))] :=
      ⟨by simp [heightOf_singleton, height], fun l hl => by simp [leavesOf_singleton, leaves, hl]⟩
    split at h
    · cases h
      exact hb
    · split at h
      · cases h
        exact ⟨by simp [heightOf_singleton, height, ofRat], fun l hl => by
          simpa [leavesOf_singleton, leaves, ofRat] using hl⟩
      · cases h
  · cases h

theorem below_of_mem_above (h : x ∈ above fs) : Below x fs :=
  below_of_mem_signedFactors (List.mem_of_mem_filter h)

theorem below_of_mem_below (h : x ∈ below fs) : Below x fs := by
  obtain ⟨f, hf, hx⟩ := List.mem_filterMap.mp h
  exact (below_of_inverted? hx).trans fun y hy => by
    obtain rfl := List.mem_singleton.mp hy
    exact below_of_mem_signedFactors hf

/-- What the symbols and the constants of a tree stand for. -/
structure Reading where
  symbol : String → Value
  constant : Constant → Value

def numberValue : Number → Outcome Value
  | .rat q => if q.den == 1 then .ok (.whole q.num) else Value.div (.whole q.num) (.whole q.den)
  | .real x => .ok (.real x.printedFloat)
  | .infinite neg => .ok (.real (Decimal.infinity neg))
  | _ => .ok (.real (0.0 / 0.0))

/-- An operation on what two computations come to. -/
def Operation.applyTo (op : Operation) (a b : Outcome Value) : Outcome Value := do
  let x ← a
  let y ← b
  op.apply x y

def signed (neg : Bool) (a : Outcome Value) : Outcome Value := if neg then a.map Value.neg else a

/-- A sum of signed terms from left to right. -/
def sumValue : List (Bool × Outcome Value) → Outcome Value
  | [] => .ok (.whole 0)
  | (neg, a) :: rest => rest.foldl
      (fun acc t => (if t.1 then Operation.sub else .add).applyTo acc t.2) (signed neg a)

/-- A product from left to right. -/
def productValue : List (Outcome Value) → Outcome Value
  | [] => .ok (.whole 1)
  | a :: as => as.foldl Operation.mul.applyTo a

/-- A product of factors above a bar and below it. -/
def quotientValue (above below : List (Outcome Value)) : Outcome Value :=
  if below.isEmpty then productValue above
  else Operation.div.applyTo (productValue above) (productValue below)

/-- A rational power: square roots by their function, reciprocals under a bar. -/
def rationalPower (q : Rat) (b : Outcome Value) : Outcome Value :=
  if q == half then b >>= Routine.sqrt.apply
  else if q == -half then Operation.div.applyTo (.ok (.whole 1)) (b >>= Routine.sqrt.apply)
  else if q == -1 then Operation.div.applyTo (.ok (.whole 1)) b
  else Operation.pow.applyTo b (numberValue (.rat q))

mutual

/-- The value of a term with its sign apart. -/
def signedValue (ρ : Reading) : Expr → Bool × Outcome Value
  | num n => if n.isNegative then (true, numberValue n.neg) else (false, numberValue n)
  | .product fs =>
    ((signedFactors fs).1, quotientValue ((above fs).attach.map fun f => treeValue ρ f.1)
      ((below fs).attach.map fun f => treeValue ρ f.1))
  | x => (false, treeValue ρ x)
termination_by x => 2 * x.height + 1
decreasing_by
  · have := (below_of_mem_above f.2).height_le
    rw [height]
    omega
  · have := (below_of_mem_below f.2).height_le
    rw [height]
    omega
  · omega

/-- The value of a tree, if it has one. -/
def treeValue (ρ : Reading) : Expr → Outcome Value
  | num n => numberValue n
  | sym s => .ok (ρ.symbol s)
  | const c => .ok (ρ.constant c)
  | .sum ts => sumValue ((orderedTerms ts).attach.map fun t => signedValue ρ t.1)
  | .product fs =>
    signed (signedFactors fs).1 (quotientValue ((above fs).attach.map fun f => treeValue ρ f.1)
      ((below fs).attach.map fun f => treeValue ρ f.1))
  | .power b x => match x with
    | num (.rat q) => rationalPower q (treeValue ρ b)
    | x => Operation.pow.applyTo (treeValue ρ b) (treeValue ρ x)
  | .call f [x] => match routineOf? f with
    | some r => treeValue ρ x >>= r.apply
    | none => .ok (.real (0.0 / 0.0))
  | .call _ _ => .ok (.real (0.0 / 0.0))
termination_by x => 2 * x.height
decreasing_by
  · have := (below_of_mem_orderedTerms t.2).height_le
    rw [height]
    omega
  · have := (below_of_mem_above f.2).height_le
    rw [height]
    omega
  · have := (below_of_mem_below f.2).height_le
    rw [height]
    omega
  all_goals
    simp only [height, heightOf]
    omega

end

end Simultaneous.Program
