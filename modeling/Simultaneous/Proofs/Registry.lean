import Simultaneous.Proofs.Distinct
import Simultaneous.Proofs.EquationSystem
import Simultaneous.Proofs.Formula.Reading

/-!
What a system is made of: the equations that were given, as far as they contain unknowns, and the
unknowns in the order in which they are first written.
-/

namespace Simultaneous

open Attempt Formula

/-- A name stands on a side of the equation. -/
def Equation.Mentions (e : Equation) (v : String) : Prop :=
  v ∈ e.left.unknowns ∨ v ∈ e.right.unknowns

theorem Equation.mem_unknowns_iff {e : Equation} {v : String} : v ∈ e.unknowns ↔ e.Mentions v := by
  rw [unknowns, List.mem_eraseDups, List.mem_append, Mentions]

namespace EquationSystem

/-- The names in equations, in the order in which they are written. -/
def written (es : List Equation) : List String :=
  es.flatMap fun e => e.left.unknowns ++ e.right.unknowns

theorem registry_eq (es : List Equation) : registry es = (written es).eraseDups :=
  Distinct.eraseDups_flatMap_eraseDups _ es

theorem isActive_iff {e : Equation} :
    isActive e = true ↔ e.left.unknowns ++ e.right.unknowns ≠ [] := by
  rw [isActive, Bool.not_eq_true', List.isEmpty_eq_false_iff, Equation.unknowns, Ne,
    Distinct.eraseDups_eq_nil_iff]

theorem isActive_eq_false_iff {e : Equation} : isActive e = false ↔ ∀ v, ¬ e.Mentions v := by
  simp only [← Equation.mem_unknowns_iff, ← List.eq_nil_iff_forall_not_mem, isActive,
    Bool.not_eq_false', List.isEmpty_iff]

/-- A system of some of the equations that are given, with its registry. -/
structure IsRegistered (limits : Settings) (gs : List Equation.Given) (s : EquationSystem) :
    Prop where
  equations : ∃ es, List.Forall₂ (fun g e => g.read limits = .ok e) gs es ∧
    s.equations = es.filter fun e => e.left.unknowns ++ e.right.unknowns ≠ []
  nodup : s.unknowns.Nodup
  mem_iff : ∀ v, v ∈ s.unknowns ↔ ∃ e ∈ s.equations, e.Mentions v
  ordered : s.unknowns.Pairwise fun v w =>
    (written s.equations).idxOf v < (written s.equations).idxOf w

variable {limits : Settings} {gs : List Equation.Given} {es : List Equation}

theorem ofEquations_eq_noVariables_iff :
    ofEquations es = .error (.unsolved .noVariables) ↔ ∀ e ∈ es, ∀ v, ¬ e.Mentions v := by
  have hnil : registry (es.filter isActive) = [] ↔ ∀ e ∈ es, ∀ v, ¬ e.Mentions v := by
    simp only [List.eq_nil_iff_forall_not_mem, mem_registry, Equation.mem_unknowns_iff]
    constructor
    · intro h e he v hv
      refine h v ⟨e, List.mem_filter.mpr ⟨he, ?_⟩, hv⟩
      by_contra hactive
      exact isActive_eq_false_iff.mp (by simpa using hactive) v hv
    · rintro h v ⟨e, he, hv⟩
      exact h e (List.mem_filter.mp he).1 v hv
  rw [← hnil, ofEquations]
  split
  next h => simp [h]
  next hne =>
    refine ⟨fun h => ?_, fun h => absurd h hne⟩
    cases h

theorem ofEquations_eq_error {f : Failure} (h : ofEquations es = .error f) :
    f = .unsolved .noVariables := by
  rw [ofEquations] at h
  split at h <;> cases h
  rfl

theorem isRegistered_of_ofGiven {s : EquationSystem} (h : ofGiven limits gs = .ok s) :
    IsRegistered limits gs s := by
  obtain ⟨es, hread, h⟩ := bind_eq_ok.mp h
  rw [readAll_eq_mapM] at hread
  obtain ⟨hkept, hregistry, -⟩ := ofEquations_eq_ok h
  have hfilter : s.equations =
      es.filter fun e => e.left.unknowns ++ e.right.unknowns ≠ [] := by
    rw [hkept]
    apply List.filter_congr
    intro e _
    rw [Bool.eq_iff_iff, isActive_iff, decide_eq_true_iff]
  refine ⟨⟨es, mapM_eq_ok hread, hfilter⟩, ?_, fun v => ?_, ?_⟩
  · rw [hregistry, registry_eq]
    exact Distinct.nodup_eraseDups _
  · simp only [hregistry, mem_registry, Equation.mem_unknowns_iff]
  · rw [hregistry, registry_eq]
    exact Distinct.pairwise_eraseDups _

/-- What is given makes a system with its registry, unless it contains no unknowns at all, or some
of it cannot be read: the first such part decides. -/
theorem ofGiven_registers (limits : Settings) (gs : List Equation.Given) :
    (∀ s, ofGiven limits gs = .ok s → IsRegistered limits gs s) ∧
    (ofGiven limits gs = .error (.unsolved .noVariables) ↔
      ∀ g ∈ gs, ∃ e, g.read limits = .ok e ∧ ∀ v, ¬ e.Mentions v) ∧
    ∀ f, ofGiven limits gs = .error f ∧ f ≠ .unsolved .noVariables ↔
      ∃ before g after, gs = before ++ g :: after ∧
        (∀ b ∈ before, ∃ e, b.read limits = .ok e) ∧ g.read limits = .error f := by
  have hfails : ∀ f, readAll limits gs = .error f → f ≠ .unsolved .noVariables := by
    rintro _ h rfl
    cases (readAll_ensures limits gs).of_eq_error h
  refine ⟨fun s => isRegistered_of_ofGiven, ⟨fun h => ?blank, fun h => ?none⟩,
    fun f => ⟨fun ⟨h, hne⟩ => ?failed, fun h => ?first⟩⟩
  case blank =>
    obtain h | ⟨es, hread, h⟩ := bind_eq_error.mp h
    · exact absurd rfl (hfails _ h)
    rw [readAll_eq_mapM] at hread
    intro g hg
    obtain ⟨e, he, hge⟩ := exists_mem_of_mem_mapM hread hg
    exact ⟨e, hge, ofEquations_eq_noVariables_iff.mp h e he⟩
  case none =>
    cases hread : readAll limits gs with
    | error f =>
      rw [readAll_eq_mapM] at hread
      obtain ⟨before, g, after, rfl, -, hg⟩ := mapM_eq_error.mp hread
      obtain ⟨e, he, -⟩ := h g (by simp)
      rw [hg] at he
      cases he
    | ok es =>
      refine bind_eq_error.mpr (.inr ⟨es, hread, ofEquations_eq_noVariables_iff.mpr fun e he => ?_⟩)
      rw [readAll_eq_mapM] at hread
      obtain ⟨g, hg, hge⟩ := exists_of_mem_mapM hread he
      obtain ⟨e', he', hblank⟩ := h g hg
      rw [hge] at he'
      cases he'
      exact hblank
  case failed =>
    obtain h | ⟨es, -, h⟩ := bind_eq_error.mp h
    · rwa [readAll_eq_mapM, mapM_eq_error] at h
    · exact absurd (ofEquations_eq_error h) hne
  case first =>
    have hread : readAll limits gs = .error f := by
      rwa [readAll_eq_mapM, mapM_eq_error]
    exact ⟨bind_eq_error.mpr (.inl hread), hfails f hread⟩

/-- Texts, a pair of sides and a single side; the first equation contains no unknown. -/
def mixedEquations : List Equation.Given := [
  .text "2 = 2", .text "b + a = 1", .sides (.data (.str "c")) (.data (.str "a + b")),
  .bare (.expression (.wrap (.sym "d")))]

theorem ofGiven_registers_mixed : ∃ s, ofGiven {} mixedEquations = .ok s ∧
    s.equations.length = 3 ∧ s.unknowns = ["b", "a", "c", "d"] ∧
    IsRegistered {} mixedEquations s := by
  have hread : Attempt.passes
      (fun s => s.equations.length == 3 && s.unknowns == ["b", "a", "c", "d"])
      (ofGiven {} mixedEquations) = true := by
    decide +kernel
  obtain ⟨s, hs, hparts⟩ := Attempt.exists_of_passes hread
  obtain ⟨hlength, hunknowns⟩ := Bool.and_eq_true_iff.mp hparts
  obtain ⟨hregistered, -⟩ := ofGiven_registers {} mixedEquations
  exact ⟨s, hs, eq_of_beq hlength, eq_of_beq hunknowns, hregistered s hs⟩

end EquationSystem

end Simultaneous
