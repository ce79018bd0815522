import Simultaneous.Newton.Solver
import Simultaneous.Proofs.Attempt.Agreement
import Simultaneous.Proofs.Newton.Trajectory

/-!
Two runs side by side. Where related iterates are at the same point after the same steps, and each
step leads from related iterates to related ones, the runs visit the same points, take as many steps
and come to the same result.
-/

namespace Simultaneous.Newton

open Attempt

variable {α : Type}

/-- The failure of a matrix in which a pivot is wanting. -/
def WantsPivot (f : Failure) : Prop := f.code? = some "decomposition"

theorem not_wantsPivot_broken (b : Breakage) : ¬ WantsPivot (.broken b) := nofun

theorem not_wantsPivot_evaluation (detail : String) :
    ¬ WantsPivot (.unsolved (.evaluation detail)) := by
  simp [WantsPivot, Failure.code?, Unsolved.code]

/-- Failures neither or both of which are for want of a pivot. -/
def Akin (f f' : Failure) : Prop := WantsPivot f ↔ WantsPivot f'

theorem Akin.refl (f : Failure) : Akin f f := Iff.rfl

theorem akin_of_not {f f' : Failure} (h : ¬ WantsPivot f) (h' : ¬ WantsPivot f') : Akin f f' :=
  iff_of_false h h'

/-- An attempt fails with no failure of a kind. -/
def Spares (G : Failure → Prop) (x : Attempt α) : Prop := ∀ f, x = .error f → ¬ G f

theorem spares_false (x : Attempt α) : Spares (fun _ => False) x := fun _ _ h => h

/-- Iterates at the same point, after as many steps and the same change. -/
structure InStep (s s' : Iterate α) : Prop where
  point_eq : s'.point = s.point
  steps_eq : s'.steps = s.steps
  change_eq : s'.change = s.change

namespace Problem

variable [Scalar α]

/-- The points of the iterates from one on, as far as the fuel goes. -/
def visitedFrom (p : Problem α) : Nat → Iterate α → List (Matrix α)
  | 0, s => [s.point]
  | fuel + 1, s => s.point ::
    if p.isSettled s || p.isExhausted s then []
    else match p.advance s with
      | .error _ => []
      | .ok s => visitedFrom p fuel s

/-- The points that a run comes to, from its starting point on. -/
def visited (p : Problem α) (start : Matrix α) : List (Matrix α) :=
  match p.first start with
  | .error _ => [start]
  | .ok s => p.visitedFrom p.fuel s

variable {p p' : Problem α} {s s' : Iterate α} {start : Matrix α} {fuel : Nat}

theorem reaches_of_mem_visitedFrom {x : Matrix α} (h : x ∈ p.visitedFrom fuel s) :
    ∃ last, p.Reaches s last ∧ last.point = x := by
  induction fuel generalizing s with
  | zero => exact ⟨s, .refl, (List.mem_singleton.mp h).symm⟩
  | succ fuel ih =>
    rw [visitedFrom] at h
    obtain rfl | h := List.mem_cons.mp h
    · exact ⟨s, .refl, rfl⟩
    split at h
    · cases h
    next hgoes =>
      split at h
      · cases h
      next s' ha =>
        obtain ⟨hs, he⟩ := Bool.or_eq_false_iff.mp (Bool.not_eq_true _ ▸ hgoes)
        obtain ⟨last, hr, hlast⟩ := ih h
        exact ⟨last, .head ⟨hs, he, ha⟩ hr, hlast⟩

/-- The course that two iterations take from related iterates. -/
structure Parallel (x x' : List (Matrix α) × Nat × Attempt (Matrix α)) : Prop where
  visited_eq : x'.1 = x.1
  steps_eq : x'.2.1 = x.2.1
  agree : Agree Eq Akin x.2.2 x'.2.2

theorem iterate_parallel {R : Iterate α → Iterate α → Prop} {G : Failure → Prop}
    (hoptions : p'.options = p.options) (hR : ∀ s s', R s s' → InStep s s')
    (hstep : ∀ s s', R s s' → Spares G (p.advance s) → Spares G (p'.advance s') →
      Agree R Akin (p.advance s) (p'.advance s'))
    (hs : R s s') (hG : Spares G (p.iterate fuel s).2) (hG' : Spares G (p'.iterate fuel s').2) :
    Parallel (p.visitedFrom fuel s, p.iterate fuel s)
      (p'.visitedFrom fuel s', p'.iterate fuel s') := by
  induction fuel generalizing s s' with
  | zero =>
    obtain ⟨hpoint, hsteps, -⟩ := hR s s' hs
    exact ⟨congrArg (fun x => [x]) hpoint, hsteps, .error (.refl _)⟩
  | succ fuel ih =>
    obtain ⟨hpoint, hsteps, hchange⟩ := hR s s' hs
    have hsettled : p'.isSettled s' = p.isSettled s := by
      rw [isSettled, isSettled, hchange, hoptions]
    have hexhausted : p'.isExhausted s' = p.isExhausted s := by
      rw [isExhausted, isExhausted, hsteps, hoptions]
    rw [iterate] at hG hG'
    rw [visitedFrom, visitedFrom, iterate, iterate]
    rw [hsettled, hexhausted] at hG' ⊢
    by_cases hset : p.isSettled s = true
    · simp only [hset, Bool.true_or, if_true]
      exact ⟨congrArg (fun x => [x]) hpoint, hsteps, .ok hpoint.symm⟩
    by_cases hexh : p.isExhausted s = true
    · simp only [hset, hexh, Bool.or_true, if_true]
      refine ⟨congrArg (fun x => [x]) hpoint, hsteps, .error ?_⟩
      rw [Iterate.exhausted, Iterate.exhausted, hsteps, hchange]
      exact .refl _
    simp only [hset, hexh, Bool.or_self, if_false, Bool.false_eq_true] at hG hG' ⊢
    have hagree := hstep s s' hs (fun f hf => hG f (by rw [hf])) fun f hf => hG' f (by rw [hf])
    rcases ha : p.advance s with f | t <;> rcases ha' : p'.advance s' with f' | t' <;>
      rw [ha, ha'] at hagree
    · cases hagree with
      | error he => exact ⟨congrArg (fun x => [x]) hpoint, congrArg (· + 1) hsteps, .error he⟩
    · cases hagree
    · cases hagree
    · cases hagree with
      | ok ht =>
        rw [ha] at hG
        rw [ha'] at hG'
        obtain ⟨hvisited, hsteps, hrest⟩ := ih ht hG hG'
        exact ⟨congrArg₂ List.cons hpoint hvisited, hsteps, hrest⟩

theorem run_parallel {R : Iterate α → Iterate α → Prop} {G : Failure → Prop}
    (hoptions : p'.options = p.options) (hR : ∀ s s', R s s' → InStep s s')
    (hfirst : Agree R Akin (p.first start) (p'.first start))
    (hstep : ∀ s s', R s s' → Spares G (p.advance s) → Spares G (p'.advance s') →
      Agree R Akin (p.advance s) (p'.advance s'))
    (hG : Spares G (p.run start).2) (hG' : Spares G (p'.run start).2) :
    Parallel (p.visited start, p.run start) (p'.visited start, p'.run start) := by
  have hfuel : p'.fuel = p.fuel := by rw [fuel, fuel, hoptions]
  rw [run] at hG hG'
  rw [visited, visited, run, run]
  rcases hf : p.first start with f | s <;> rcases hf' : p'.first start with f' | s' <;>
    rw [hf, hf'] at hfirst
  · cases hfirst with
    | error he => exact ⟨rfl, rfl, .error he⟩
  · cases hfirst
  · cases hfirst
  · cases hfirst with
    | ok hs =>
      rw [hf] at hG
      rw [hf'] at hG'
      simp only [hfuel] at hG hG' ⊢
      exact iterate_parallel hoptions hR hstep hs hG hG'

end Problem

namespace Solver

variable [Scalar α] {s : Solver α} {p p' : Problem α} {start : Matrix α}

/-- A solver takes the course of its run, if it begins one. -/
theorem solveFrom_parallel (hlength : p'.residuals.length = p.residuals.length)
    (hunknowns : p'.unknowns = p.unknowns) (hoptions : p'.options = p.options)
    (h : Problem.Parallel (p.visited start, p.run start) (p'.visited start, p'.run start)) :
    ({ s with problem := p' }.solveFrom (.ok start)).1.iterations =
        ({ s with problem := p }.solveFrom (.ok start)).1.iterations ∧
      Agree Eq Akin ({ s with problem := p }.solveFrom (.ok start)).2
        ({ s with problem := p' }.solveFrom (.ok start)).2 := by
  obtain ⟨-, hsteps, hagree⟩ := h
  simp only at hsteps hagree
  have hmismatch : mismatch? { s with problem := p' } = mismatch? { s with problem := p } := by
    rw [mismatch?, mismatch?, hlength, hunknowns]
  rcases hm : mismatch? { s with problem := p } with _ | f <;> rw [hm] at hmismatch <;>
    simp only [solveFrom, hm, hmismatch]
  · simp only [runFrom, hoptions]
    rcases hrun : p.run start with ⟨steps, f | x⟩ <;>
      rcases hrun' : p'.run start with ⟨steps', f' | x'⟩ <;> rw [hrun, hrun'] at hsteps hagree
    · cases hagree with
      | error he => exact ⟨hsteps, .error he⟩
    · cases hagree
    · cases hagree
    · cases hagree with
      | ok hx =>
        subst hx
        simp only at hsteps ⊢
        rw [hsteps]
        split
        · exact ⟨rfl, .error (.refl _)⟩
        · exact ⟨rfl, .ok rfl⟩
  · exact ⟨trivial, .error (.refl _)⟩

end Solver

end Simultaneous.Newton
