import Simultaneous.Formula.Parse
import Simultaneous.Proofs.Formula.Preorder

/-!
Limits and admission. Of all data only expressions are admitted, and every other one is refused by
a node of its tree. An expression that is admitted under some limits contains no forbidden function,
and under other limits it is refused only for its nodes or its depth.
-/

namespace Simultaneous.Formula

open Attempt

/-- A refusal for too many nodes or levels. -/
inductive Exceeds (limits : Settings) : Refusal → Prop
  | nodes : Exceeds limits (.tooComplex limits.maxNodes)
  | levels : Exceeds limits (.tooDeep limits.maxDepth)

variable {limits other : Settings} {t : Tree} {n : Nat} {d : Datum} {e : Algebra.Expr} {r : Refusal}

theorem exceeds_of_accept (h : accept other 0 0 t = .ok n) (hr : accept limits 0 0 t = .error r) :
    Exceeds limits r := by
  obtain ⟨-, hadmissible⟩ := accept_eq_ok_iff.mp h
  obtain ⟨before, v, number, after, hsplit, hoffends, -⟩ := accept_eq_error_iff.mp hr
  have hmem : (v, number) ∈ (t.visits 0).zipIdx 1 := hsplit ▸ List.mem_append_cons_self
  have hv : v ∈ t.visits 0 := List.fst_mem_of_mem_zipIdx hmem
  cases hoffends with
  | nodes => exact .nodes
  | levels => exact .levels
  -- the name and the kind do not depend on the limits
  | function _ _ hname => exact absurd (hadmissible.functions _ hv _ _ rfl) hname
  | kind => exact absurd rfl (hadmissible.scalar _ hv _)

theorem Mixed.not_admissible (m : Mixed) : ¬ Admissible limits m.tree := by
  intro h
  have hscalar := (m.tree.isScalar_iff 0).mpr h.scalar
  rw [m.impure] at hscalar
  cases hscalar

theorem not_admissible_tree (hd : ∀ e, d ≠ .expr e) : ¬ Admissible limits d.tree := by
  cases d with
  | expr e => exact absurd rfl (hd e)
  | mixed m => exact m.not_admissible
  | _ => exact fun h => h.scalar _ List.mem_cons_self _ rfl

theorem acceptDatum_eq_ok_iff :
    acceptDatum limits d = .ok e ↔ d = .expr e ∧ Admissible limits (.ofExpr e) := by
  constructor
  · intro h
    obtain ⟨n, hn, h⟩ := bind_eq_ok.mp h
    cases d with
    | expr e' =>
      cases h
      exact ⟨rfl, (accept_eq_ok_iff.mp hn).2⟩
    | _ => cases h
  · rintro ⟨rfl, h⟩
    rw [acceptDatum, Datum.tree, accept_eq_ok_iff.mpr ⟨rfl, h⟩]
    rfl

/-- Whatever a datum is, it is refused for the first node that offends. -/
theorem acceptDatum_eq_error_iff :
    acceptDatum limits d = .error r ↔
      FirstOffence limits ((d.tree.visits 0).zipIdx 1) r r.code := by
  unfold acceptDatum
  rw [← accept_eq_error_iff, bind_eq_error]
  constructor
  · rintro (h | ⟨n, hn, h⟩)
    · exact h
    · obtain ⟨-, hadmissible⟩ := accept_eq_ok_iff.mp hn
      cases d with
      | expr e => cases h
      | _ => exact absurd hadmissible (not_admissible_tree (by simp))
  · exact .inl

/-- The plain forms that are read as an expression. -/
theorem parsePlain_eq_ok_iff {s : List Char} :
    parsePlain limits s = .ok e ↔ datumOf s = .ok (.expr e) ∧ Admissible limits (.ofExpr e) := by
  constructor
  · intro h
    obtain ⟨d, hd, h⟩ := bind_eq_ok.mp h
    cases haccept : acceptDatum limits d with
    | error r =>
      rw [haccept] at h
      cases h
    | ok e' =>
      rw [haccept] at h
      cases h
      obtain ⟨rfl, hadmissible⟩ := acceptDatum_eq_ok_iff.mp haccept
      exact ⟨hd, hadmissible⟩
  · rintro ⟨hd, hadmissible⟩
    rw [parsePlain, hd, ok_bind, acceptDatum_eq_ok_iff.mpr ⟨rfl, hadmissible⟩]
    rfl

end Simultaneous.Formula
