import Simultaneous.Proofs.Evaluation
import Simultaneous.Proofs.Matrix.Arrangement
import Simultaneous.Proofs.Newton.AffineRuns
import Simultaneous.Proofs.Newton.Lockstep
import Simultaneous.Proofs.Newton.Sizes

/-!
The sides of equations. In exact arithmetic an exchange of the sides of some equations changes the
signs of residuals and slopes, and nothing else in a run.
-/

namespace Simultaneous

/-- A side of an equation: the variables in it, and its value where it has one. -/
structure Side (α : Type) where
  unknowns : List String
  value : (String → Option α) → Attempt α
  not_wantsPivot : ∀ env f, value env = .error f → ¬ Newton.WantsPivot f

/-- An equation by its two sides. -/
structure Sides (α : Type) where
  left : Side α
  right : Side α

namespace Sides

variable {α : Type}

def residual [Sub α] (e : Sides α) : Residual α where
  unknowns := (e.left.unknowns ++ e.right.unknowns).eraseDups
  value env := do
    let a ← e.left.value env
    let b ← e.right.value env
    return a - b

def exchanged (e : Sides α) : Sides α := ⟨e.right, e.left⟩

/-- The sides of the equations at the chosen places are exchanged. -/
def exchangeAt (chosen : Nat → Bool) (es : List (Sides α)) : List (Sides α) :=
  es.mapIdx fun i e => if chosen i then e.exchanged else e

end Sides

def Expression.toSide (e : Expression) : Side Float where
  unknowns := e.unknowns
  value env := e.evaluate fun name => (env name).map .real
  not_wantsPivot env f h := by
    cases (e.evaluate_ensures _).of_eq_error h with
    | evaluation detail => exact Newton.not_wantsPivot_evaluation detail
    | tooLong _ => exact Newton.not_wantsPivot_broken _

def Equation.toSides (e : Equation) : Sides Float := ⟨e.left.toSide, e.right.toSide⟩

theorem Equation.residual_toSides (e : Equation) : e.toSides.residual = e.toResidual := rfl

namespace Newton

open Attempt Simultaneous.Matrix

section

variable {e : Sides ℚ} {r r' : Residual ℚ}

theorem not_wantsPivot_residual {env : String → Option ℚ} {f : Failure}
    (h : e.residual.value env = .error f) : ¬ WantsPivot f := by
  obtain h | ⟨a, -, h⟩ := bind_eq_error.mp h
  · exact e.left.not_wantsPivot env f h
  · obtain h | ⟨b, _, h⟩ := bind_eq_error.mp h
    · exact e.right.not_wantsPivot env f h
    · cases h

/-- Residuals of the same variables that differ by a sign at most. -/
structure Scaled (q : ℚ) (r r' : Residual ℚ) : Prop where
  abs_sign : |q| = 1
  contains_eq : ∀ v, r'.unknowns.contains v = r.unknowns.contains v
  value : ∀ env, Agree (fun v v' => v' = q * v) Akin (r.value env) (r'.value env)

theorem scaled_self (e : Sides ℚ) : Scaled 1 e.residual e.residual where
  abs_sign := abs_one
  contains_eq _ := rfl
  value env := (Agree.of_eq Akin.refl rfl).imp (fun v v' h => by rw [h, one_mul]) fun _ _ h => h

theorem scaled_exchanged (e : Sides ℚ) : Scaled (-1) e.residual e.exchanged.residual where
  abs_sign := by rw [abs_neg, abs_one]
  contains_eq v := by
    rw [Bool.eq_iff_iff, List.contains_iff_mem, List.contains_iff_mem]
    simp only [Sides.residual, Sides.exchanged, List.mem_eraseDups, List.mem_append, or_comm]
  value env := by
    have hleft := e.left.not_wantsPivot env
    have hright := e.right.not_wantsPivot env
    simp only [Sides.residual, Sides.exchanged]
    rcases hl : e.left.value env with f | a <;> rcases hr : e.right.value env with f' | b
    · exact .error (akin_of_not (hleft f hl) (hright f' hr))
    · exact .error (.refl f)
    · exact .error (.refl f')
    · exact .ok (by ring)

end

instance : Inhabited (Residual ℚ) := ⟨[], fun _ => .ok 0⟩

namespace Problem

variable {p p' : Problem ℚ} {x : Matrix ℚ}

theorem values_eq (hp : p.IsSquare) (x : Matrix ℚ) :
    p.values x = (p.residuals.mapM fun r => r.value (bindings p.unknowns x)) >>= fun vs =>
      .ok ⟨p.unknowns.length, 1, vs.map fun v => [v]⟩ := by
  rw [values, hp.length_residuals, filled_eq_ok hp.pos Nat.one_pos, ok_bind]
  rfl

/-- A step in three parts: the slopes, the way to go, the next iterate. -/
theorem advance_eq (p : Problem ℚ) (s : Iterate ℚ) :
    p.advance s = p.jacobian s.point s.residuals.firstColumn >>= fun slopes =>
      (slopes.inv p.options.pivotTolerance >>= fun b => b.mul s.residuals) >>= fun step =>
        s.point.sub step >>= fun x => p.values x >>= fun here =>
          changeBetween here s.residuals >>= fun change =>
            .ok ⟨x, here, s.steps + 1, some change⟩ := by
  simp only [bind_assoc]
  rfl

theorem slope_spares {r : Residual ℚ} (hr : ∀ env f, r.value env = .error f → ¬ WantsPivot f)
    (x : Matrix ℚ) (here : ℚ) (k : Nat) :
    Ensures (fun _ => True) (fun f => ¬ WantsPivot f) (p.slope x r here k) := by
  have hshift : Ensures (fun _ => True) (fun f => ¬ WantsPivot f)
      (shift p.options.epsilon k x) := by
    rw [shift]
    split
    · exact .error (not_wantsPivot_broken _)
    · exact .ok trivial
  apply hshift.bind
  intro moved _
  have hvalue : Ensures (fun _ => True) (fun f => ¬ WantsPivot f)
      (r.value (bindings p.unknowns moved)) := by
    rcases h : r.value (bindings p.unknowns moved) with f | v
    · exact .error (hr _ f h)
    · exact .ok trivial
  apply hvalue.bind
  intro there _
  split
  · exact .ok trivial
  · exact .error (not_wantsPivot_broken _)

theorem slopes_spares {r : Residual ℚ} (hr : ∀ env f, r.value env = .error f → ¬ WantsPivot f)
    (x : Matrix ℚ) (i : Nat) (here : ℚ) :
    Ensures (fun _ => True) (fun f => ¬ WantsPivot f) (p.slopes x i r here) := by
  refine (Ensures.mapM (Q := fun _ => True) fun ⟨name, k⟩ _ => ?_).imp (fun _ _ => trivial)
    fun _ h => h
  dsimp only
  split
  · apply (slope_spares hr x here k).bind
    intro s _
    split
    · exact .ok trivial
    · exact .error (not_wantsPivot_broken _)
  · exact .ok trivial

section

variable {q : Nat → ℚ} {vs vs' : List ℚ}

/-- The residuals of one problem are those of the other but for their signs. -/
structure SignedAs (p p' : Problem ℚ) (q : Nat → ℚ) : Prop where
  square : p.IsSquare
  unknowns_eq : p'.unknowns = p.unknowns
  options_eq : p'.options = p.options
  length_eq : p'.residuals.length = p.residuals.length
  scaled : ∀ i (hi : i < p.residuals.length) (hi' : i < p'.residuals.length),
    Scaled (q i) p.residuals[i] p'.residuals[i]

/-- Columns that differ in the signs of their entries. -/
def SignedColumns (n : Nat) (q : Nat → ℚ) (v v' : Matrix ℚ) : Prop :=
  ∃ f, v = vector n f ∧ v' = vector n fun i => q i * f i

namespace SignedAs

variable (h : SignedAs p p' q)

include h

theorem square' : p'.IsSquare :=
  ⟨by rw [h.length_eq, h.unknowns_eq, h.square.length_residuals], h.unknowns_eq ▸ h.square.pos⟩

theorem values_agree (x : Matrix ℚ) :
    Agree (SignedColumns p.unknowns.length q) Akin (p.values x) (p'.values x) := by
  rw [values_eq h.square, values_eq h.square', h.unknowns_eq]
  have hvalue := Agree.mapM (R := fun i v v' => v' = q i * v)
    (f := fun r => r.value (bindings p.unknowns x)) (g := fun r => r.value (bindings p.unknowns x))
    h.length_eq.symm fun i hi hi' => (h.scaled i hi hi').value _
  apply hvalue.bind
  rintro vs vs' ⟨hvs, hvs', hall⟩
  rw [h.square.length_residuals] at hvs hvs'
  refine .ok ⟨fun i => vs.getD i 0, ?_, ?_⟩
  · have hcolumn := valuesOf_eq_vector id vs
    rwa [valuesOf, hvs] at hcolumn
  · have hcolumn := valuesOf_eq_vector id vs'
    rw [valuesOf, hvs'] at hcolumn
    refine hcolumn.trans (vector_congr fun i hi => ?_)
    change vs'.getD i 0 = q i * vs.getD i 0
    rw [List.getD_eq_getElem _ _ (by omega), List.getD_eq_getElem _ _ (by omega)]
    exact hall i _ _

theorem slope_agree {i : Nat} (hi : i < p.residuals.length) (hi' : i < p'.residuals.length)
    (x : Matrix ℚ) (here : ℚ) (k : Nat) :
    Agree (fun s s' => s' = q i * s) Akin (p.slope x p.residuals[i] here k)
      (p'.slope x p'.residuals[i] (q i * here) k) := by
  rw [slope, slope, h.options_eq, h.unknowns_eq]
  apply (Agree.of_eq Akin.refl rfl).bind
  rintro moved _ rfl
  apply ((h.scaled i hi hi').value _).bind
  rintro there _ rfl
  by_cases hepsilon : p.options.epsilon = 0
  · rw [hepsilon, Scalar.over?_zero, Scalar.over?_zero]
    exact .error (.refl _)
  · rw [Scalar.over?_of_ne hepsilon, Scalar.over?_of_ne hepsilon, ← mul_sub, mul_div_assoc]
    exact .ok rfl

theorem slopes_agree {i : Nat} (hi : i < p.residuals.length) (hi' : i < p'.residuals.length)
    (x : Matrix ℚ) (here : ℚ) :
    Agree (fun row row' => row.length = p.unknowns.length ∧ row'.length = p.unknowns.length ∧
      ∀ j (hj : j < row.length) (hj' : j < row'.length), row'[j] = q i * row[j]) Akin
        (p.slopes x i p.residuals[i] here) (p'.slopes x i p'.residuals[i] (q i * here)) := by
  rw [slopes, slopes, h.unknowns_eq]
  refine (Agree.mapM (R := fun _ s s' => s' = q i * s) rfl fun j _ _ => ?_).imp
    (fun row row' h => ?_) fun _ _ h => h
  · obtain ⟨name, k⟩ := p.unknowns.zipIdx[j]
    dsimp only
    rw [(h.scaled i hi hi').contains_eq]
    split
    · apply (h.slope_agree hi hi' x here k).bind
      rintro s _ rfl
      split
      · exact .ok rfl
      · exact .error (.refl _)
    · exact .ok (mul_zero _).symm
  · rwa [List.length_zipIdx] at h

theorem jacobian_agree (x : Matrix ℚ) (f : Nat → ℚ) :
    Agree (fun a a' => a.HasShape p.unknowns.length p.unknowns.length ∧
      a'.HasShape p.unknowns.length p.unknowns.length ∧
      Signed q p.unknowns.length a.cells a'.cells) Akin
        (p.jacobian x (vector p.unknowns.length f).firstColumn)
        (p'.jacobian x (vector p.unknowns.length fun i => q i * f i).firstColumn) := by
  have hlength : ∀ f : Nat → ℚ,
      (vector p.unknowns.length f).firstColumn.length = p.unknowns.length := by
    intro f
    rw [firstColumn_vector, List.length_map, List.length_range]
  have hlength' := hlength fun i => q i * f i
  have hshape := jacobian_ensures h.square x (hlength f)
  have hshape' := jacobian_ensures h.square' x (h.unknowns_eq ▸ hlength')
  rw [h.unknowns_eq] at hshape'
  refine Agree.and_ensures ?_ hshape hshape'
  rw [jacobian_eq h.square x (hlength f), jacobian_eq h.square' x (h.unknowns_eq ▸ hlength'),
    h.unknowns_eq, firstColumn_vector, firstColumn_vector]
  have hn := h.square.length_residuals
  have hcount : ∀ (rs : List (Residual ℚ)) (f : Nat → ℚ), rs.length = p.unknowns.length →
      (rs.zip ((List.range p.unknowns.length).map f)).zipIdx.length = p.unknowns.length := by
    intro rs f hrs
    simp [hrs]
  have hn' := h.length_eq.trans hn
  apply (Agree.mapM (R := fun i row row' => row.length = p.unknowns.length ∧
    row'.length = p.unknowns.length ∧ ∀ j (hj : j < row.length) (hj' : j < row'.length),
      row'[j] = q i * row[j]) ((hcount _ _ hn).trans (hcount _ _ hn').symm) fun i hi hi' => ?_).bind
  · rintro rows rows' ⟨hrows, hrows', hall⟩
    rw [hcount _ _ hn] at hrows hrows'
    refine .ok ⟨fun r hr => ?_, fun r hr j hj => ?_⟩
    · exact (h.scaled r (by omega) (by omega)).abs_sign
    · obtain ⟨hrow, hrow', hentry⟩ := hall r (by omega) (by omega)
      simp only [entry]
      rw [List.getD_eq_getElem rows [] (by omega), List.getD_eq_getElem rows' [] (by omega),
        List.getD_eq_getElem _ _ (by omega), List.getD_eq_getElem _ _ (by omega)]
      exact hentry j _ _
  · rw [hcount _ _ hn] at hi
    simp only [List.getElem_zipIdx, List.getElem_zip, List.getElem_map, List.getElem_range,
      Nat.zero_add]
    exact h.slopes_agree (by omega) (by omega) x (f i)

/-- Iterates at the same point whose residuals differ in their signs. -/
structure Related (p : Problem ℚ) (q : Nat → ℚ) (s s' : Iterate ℚ) : Prop extends InStep s s' where
  residuals : SignedColumns p.unknowns.length q s.residuals s'.residuals

theorem first_agree (start : Matrix ℚ) :
    Agree (Related p q) Akin (p.first start) (p'.first start) :=
  (h.values_agree start).bind fun _ _ hv => .ok ⟨⟨rfl, rfl, rfl⟩, hv⟩

/-- A step from related iterates leads to related ones, or fails for want of a pivot in both. -/
theorem advance_agree {s s' : Iterate ℚ} (hs : Related p q s s') :
    Agree (Related p q) Akin (p.advance s) (p'.advance s') := by
  obtain ⟨⟨hpoint, hsteps, -⟩, f, hf, hf'⟩ := hs
  rw [advance_eq, advance_eq, hpoint, hsteps, hf, hf', h.options_eq]
  apply (h.jacobian_agree s.point f).bind
  rintro a a' ⟨ha, ha', hsigned⟩
  rw [hsigned.inv_mul_eq ha ha']
  apply (Agree.of_eq Akin.refl rfl).bind
  rintro step _ rfl
  apply (Agree.of_eq Akin.refl rfl).bind
  rintro x _ rfl
  apply (h.values_agree x).bind
  rintro _ _ ⟨g, rfl, rfl⟩
  have hchange : largestOf ((List.range p.unknowns.length).map fun i => |q i * g i - q i * f i|) =
      largestOf ((List.range p.unknowns.length).map fun i => |g i - f i|) := by
    congr 1
    refine List.map_congr_left fun i hi => ?_
    have hi : i < p.residuals.length := h.square.length_residuals ▸ List.mem_range.mp hi
    rw [← mul_sub, abs_mul, (h.scaled i hi (h.length_eq ▸ hi)).abs_sign, one_mul]
  rw [changeBetween_vector, changeBetween_vector, hchange]
  exact .ok ⟨⟨rfl, rfl, rfl⟩, g, rfl, rfl⟩

theorem run_parallel (start : Matrix ℚ) :
    Parallel (p.visited start, p.run start) (p'.visited start, p'.run start) :=
  Problem.run_parallel h.options_eq (fun _ _ hs => hs.toInStep) (h.first_agree start)
    (fun _ _ hs _ _ => h.advance_agree hs) (spares_false _) (spares_false _)

end SignedAs

end

end Problem

end Newton

end Simultaneous
