import Mathlib.Data.Finset.Dedup
import Mathlib.Order.Bounds.Basic
import Simultaneous.Proofs.Search.Soundness

/-!
Trials after the first. Each reduces the whole system anew and begins at the last equation that the
trial before it left out. Nothing is covered when that equation is visited, so it stays, and no two
trials in a row leave out the same equations.
-/

namespace Simultaneous.Search

open Reduction

section

variable {system : EquationSystem} {settings : Settings} {remaining made start : Nat}

/-- A trial reduces the whole system from where it starts. -/
def ReducesAll (system : EquationSystem) (trial : Trial) : Prop :=
  reduce Equation.unknowns system.unknowns.length trial.start system.equations =
    (others trial.reduction.removed system.equations, .ok trial.reduction)

/-- A trial starts at the last equation that the one before it left out. -/
def Follows (before after : Trial) : Prop := after.start = before.reduction.removed.getLastD 0

theorem attempt_eq_ok (hover : system.unknowns.length ≤ system.equations.length)
    {t t' : Random.Twister} {trial : Trial}
    (h : attempt system settings start t = .ok (trial, t')) :
    trial.start = start ∧ ReducesAll system trial := by
  rw [attempt] at h
  rcases hr : reduce Equation.unknowns system.unknowns.length start system.equations with
    ⟨rest, u | r⟩
  · rw [hr] at h
    cases h
  · obtain rfl := (reduce_conserves hr (by omega)).rest_eq
    rw [hr] at h
    cases h
    exact ⟨rfl, hr⟩

theorem series_follows (settings : Settings)
    (hover : system.unknowns.length ≤ system.equations.length)
    (remaining made start : Nat) (t : Random.Twister) :
    (∀ trial ∈ (series system settings remaining made start t).trials, ReducesAll system trial) ∧
    (∀ trial ∈ (series system settings remaining made start t).trials.head?,
      trial.start = start) ∧
    (series system settings remaining made start t).trials.IsChain Follows := by
  induction remaining generalizing made start t with
  | zero => exact ⟨by simp [series], by simp [series], .nil⟩
  | succ remaining ih =>
    rw [series]
    split
    · exact ⟨by simp, by simp, .nil⟩
    next trial t' h =>
      obtain ⟨hstart, hreduces⟩ := attempt_eq_ok hover h
      have hhead : ∀ first ∈ some trial, first.start = start := by
        rintro first ⟨⟩
        exact hstart
      simp only
      split
      next hd =>
        obtain ⟨hall, hnext, hchain⟩ := ih (made + 1) (trial.reduction.removed.getLastD 0) t'
        exact ⟨List.forall_mem_cons.mpr ⟨hreduces, hall⟩, hhead,
          List.isChain_cons.mpr ⟨hnext, hchain⟩⟩
      next r hd => exact ⟨List.forall_mem_singleton.mpr hreduces, hhead, .singleton trial⟩

theorem IsSeries.isTrial_of_mem {o : Outcome}
    (h : IsSeries system settings remaining made start o) {trial : Trial}
    (hmem : trial ∈ o.trials) : IsTrial system settings trial := by
  induction h with
  | exhausted made start t => cases hmem
  | decided remaining made t isTrial decision =>
    obtain rfl := List.mem_singleton.mp hmem
    exact isTrial
  | again isTrial undecided rest ih =>
    obtain rfl | hmem := List.mem_cons.mp hmem
    · exact isTrial
    · exact ih hmem

end

theorem isGreatest_getLastD {is : List Nat} (h : is.Pairwise (· < ·)) (hne : is ≠ []) :
    IsGreatest {j | j ∈ is} (is.getLastD 0) := by
  obtain ⟨js, last, rfl⟩ := (List.eq_nil_or_concat is).resolve_left hne
  rw [List.concat_eq_append] at h ⊢
  obtain ⟨-, -, hlt⟩ := List.pairwise_append.mp h
  rw [List.getLastD_concat]
  refine ⟨by simp, fun j hj => ?_⟩
  obtain hj | hj := List.mem_append.mp hj
  · exact (hlt j hj last (by simp)).le
  · exact (List.mem_singleton.mp hj).le

theorem system_solve (s : Search) : s.solve.1.system = s.system := by
  rw [solve]
  split
  · rfl
  · simp only
    split <;> rfl
  · simp only
    split <;> rfl

theorem attempts_solve {s : Search} (h : s.system.unknowns.length < s.system.equations.length) :
    s.solve.1.attempts = s.seriesOf.attempts := by
  rw [solve, EquationSystem.kind_eq_overdetermined_iff.mpr h]
  simp only
  split <;> rfl

/-- Every trial after the first reduces the whole system and keeps the last equation that the one
before it left out. A search leaves its system as it was. -/
theorem solve_retries_keep_last {es : List Equation} {s : Search}
    (hsystem : EquationSystem.ofEquations es = .ok s.system)
    (hover : s.system.unknowns.length < s.system.equations.length) :
    s.solve.1.attempts = s.seriesOf.trials.length ∧
    (∀ k before after, s.seriesOf.trials[k]? = some before →
      s.seriesOf.trials[k + 1]? = some after →
      IsTrial s.system s.settings after ∧ ReducesAll s.system after ∧
      (∃ i, IsGreatest {j | j ∈ before.reduction.removed} i ∧ after.start = i ∧
        i ∉ after.reduction.removed) ∧
      before.reduction.removed.toFinset ≠ after.reduction.removed.toFinset) ∧
    s.solve.1.system = s.system := by
  have hseries := isSeries_seriesOf hsystem hover.le
  refine ⟨?_, fun k before after hbefore hafter => ?_, system_solve s⟩
  · rw [attempts_solve hover, hseries.attempts_eq, Nat.zero_add]
  obtain ⟨hreduces, -, hchain⟩ :=
    series_follows s.settings hover.le s.system.maxTrials 0 0 s.stream
  have htrial := hseries.isTrial_of_mem (List.mem_of_getElem? hbefore)
  have hnext : Follows before after := by
    obtain ⟨hk, rfl⟩ := List.getElem?_eq_some_iff.mp hbefore
    obtain ⟨hk', rfl⟩ := List.getElem?_eq_some_iff.mp hafter
    exact List.isChain_iff_getElem.mp hchain k hk'
  have hfull := hreduces after (List.mem_of_getElem? hafter)
  -- a trial leaves out an equation, since there are too many
  have hne : before.reduction.removed ≠ [] := by
    intro hnil
    have hlength := htrial.conserves.length_removed
    rw [hnil, List.length_nil] at hlength
    omega
  have hlast := isGreatest_getLastD htrial.conserves.ascending hne
  have hkept : before.reduction.removed.getLastD 0 ∉ after.reduction.removed := by
    obtain ⟨e, he⟩ : ∃ e, s.system.equations[before.reduction.removed.getLastD 0]? = some e :=
      ⟨_, List.getElem?_eq_getElem (htrial.conserves.valid _ hlast.1)⟩
    obtain ⟨v, hv⟩ := EquationSystem.exists_mem_unknowns hsystem (List.mem_of_getElem? he)
    rw [← hnext] at he ⊢
    exact start_notMem_removed hfull (by omega) he hv
  refine ⟨hseries.isTrial_of_mem (List.mem_of_getElem? hafter), hfull, ⟨_, hlast, hnext, hkept⟩,
    fun heq => hkept ?_⟩
  rw [← List.mem_toFinset, ← heq, List.mem_toFinset]
  exact hlast.1

/-- One of four unknowns is to have two values. -/
def conflictSearch : Search :=
  let setting (name : String) (n : Int) : Equation :=
    ⟨.ofTree (.sym name) [name] name, .wrap (.ofInt n)⟩
  { system := ⟨[setting "a" 1, setting "b" 1, setting "c" 1, setting "d" 1, setting "a" 2],
      ["a", "b", "c", "d"]⟩
    settings := {}
    stream := ⟨#[], 0⟩ }

theorem solve_retries_keep_last_conflict :
    EquationSystem.ofEquations conflictSearch.system.equations = .ok conflictSearch.system ∧
    conflictSearch.system.unknowns.length < conflictSearch.system.equations.length ∧
    conflictSearch.solve.1.attempts = 2 ∧
    ∃ before after, conflictSearch.seriesOf.trials = [before, after] ∧
      before.reduction.removed = [4] ∧ after.start = 4 ∧ after.reduction.removed = [0] ∧
      before.reduction.removed.toFinset ≠ after.reduction.removed.toFinset := by
  have hsystem : EquationSystem.ofEquations conflictSearch.system.equations =
      .ok conflictSearch.system := by
    rfl
  have hover : conflictSearch.system.unknowns.length < conflictSearch.system.equations.length := by
    decide
  have hremoved : conflictSearch.seriesOf.trials.map (·.reduction.removed) = [[4], [0]] := by
    decide +kernel
  obtain ⟨before, trials, htrials, hbefore, hrest⟩ := List.map_eq_cons_iff.mp hremoved
  obtain ⟨after, trials, rfl, hafter, hnil⟩ := List.map_eq_cons_iff.mp hrest
  obtain rfl := List.map_eq_nil_iff.mp hnil
  obtain ⟨hattempts, hretries, -⟩ := solve_retries_keep_last hsystem hover
  rw [htrials] at hattempts hretries
  obtain ⟨-, -, ⟨i, hi, hstart, -⟩, hne⟩ := hretries 0 before after rfl rfl
  have hmem : i ∈ before.reduction.removed := hi.1
  rw [hbefore, List.mem_singleton] at hmem
  exact ⟨hsystem, hover, hattempts, before, after, htrials, hbefore, hstart.trans hmem, hafter, hne⟩

end Simultaneous.Search
