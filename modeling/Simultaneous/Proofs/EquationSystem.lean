import Simultaneous.Proofs.Reduction.Conservation

/-!
The unknowns of a system are those of its equations, and there is at least one. A system can
therefore always be reduced to as many equations as it has unknowns.
-/

namespace Simultaneous.EquationSystem

variable {es : List Equation} {s : EquationSystem}

theorem readAll_eq_mapM (limits : Settings) (gs : List Equation.Given) :
    readAll limits gs = gs.mapM (Equation.Given.read limits) := by
  induction gs with
  | nil => rfl
  | cons g gs ih => rw [readAll, ih, List.mapM_cons]

theorem mem_registry {v : String} : v ∈ registry es ↔ ∃ e ∈ es, v ∈ e.unknowns := by
  rw [registry, List.mem_eraseDups, List.mem_flatMap]

theorem ofEquations_eq_ok (h : ofEquations es = .ok s) :
    s.equations = es.filter isActive ∧ s.unknowns = registry s.equations ∧
      0 < s.unknowns.length := by
  rw [ofEquations] at h
  split at h
  · cases h
  next hne =>
    cases h
    exact ⟨rfl, rfl, List.length_pos_iff.mpr hne⟩

theorem exists_mem_unknowns (h : ofEquations es = .ok s) {e : Equation} (he : e ∈ s.equations) :
    ∃ v, v ∈ e.unknowns := by
  obtain ⟨heq, -, -⟩ := ofEquations_eq_ok h
  rw [heq, List.mem_filter] at he
  exact List.exists_mem_of_ne_nil _ (by simpa [isActive] using he.2)

/-- A system never has too few redundant equations. -/
theorem exists_reduce (h : ofEquations es = .ok s) (start : Int) :
    ∃ rest r, Reduction.reduce Equation.unknowns s.unknowns.length start s.equations =
      (rest, .ok r) := by
  obtain ⟨-, hregistry, -⟩ := ofEquations_eq_ok h
  have hnames : ∀ e ∈ s.equations, e.unknowns ⊆ s.unknowns := by
    intro e he v hv
    rw [hregistry]
    exact mem_registry.mpr ⟨e, he, hv⟩
  exact Reduction.exists_reduce_eq_ok hnames (Int.le_refl _)

theorem kind_eq_overdetermined_iff :
    s.kind = .overdetermined ↔ s.unknowns.length < s.equations.length := by
  rw [kind, excess]
  split
  · simp
    omega
  · split <;> simp <;> omega

end Simultaneous.EquationSystem
