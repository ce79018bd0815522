import Simultaneous.Expression
import Simultaneous.Proofs.Algebra.Sorting
import Simultaneous.Proofs.Attempt
import Simultaneous.Proofs.Distinct

/-!
The variables of an expression are the symbols of its tree, each once: first those that are words of
the text, as these follow each other, then the others in alphabetical order.
-/

namespace Simultaneous.Expression

open Algebra Attempt Distinct

variable {t : Expr} {s : String} {order names : List String}

theorem mem_symbolNames : s ∈ symbolNames t ↔ s ∈ t.symbols := by
  rw [symbolNames, mem_joinRuns, mem_sortBy]

theorem exists_sorted (t : Expr) : ∃ xs : List String, xs.Pairwise (· ≤ ·) ∧
    symbolNames t = joinRuns (· == ·) (fun a _ => a) xs := by
  refine ⟨_, ?_, rfl⟩
  refine (sortBy_pairwise (fun a b c => ?_) (fun a b => ?_) _).imp fun h => ?_
  · simp only [decide_eq_false_iff_not, String.not_lt]
    exact String.le_trans
  · simp only [decide_eq_false_iff_not, String.not_lt]
    exact String.le_total a b
  · simpa only [decide_eq_false_iff_not, String.not_lt] using h

theorem nodup_symbolNames (t : Expr) : (symbolNames t).Nodup := by
  obtain ⟨xs, hxs, h⟩ := exists_sorted t
  rw [h]
  exact nodup_joinRuns (fun _ _ => String.le_antisymm) hxs

theorem symbolNames_pairwise (t : Expr) : (symbolNames t).Pairwise (· < ·) := by
  obtain ⟨xs, hxs, h⟩ := exists_sorted t
  have hsorted : (symbolNames t).Pairwise (· ≤ ·) := h ▸ hxs.sublist (joinRuns_sublist xs)
  exact (hsorted.and (nodup_symbolNames t)).imp fun h => Std.lt_of_le_of_ne h.1 h.2

theorem mem_orderVariables : s ∈ orderVariables order names ↔ s ∈ names := by
  by_cases h : s ∈ order <;> simp [orderVariables, h]

theorem nodup_orderVariables (h : names.Nodup) : (orderVariables order names).Nodup := by
  refine List.nodup_append.mpr ⟨(nodup_eraseDups _).filter _, h.filter _, ?_⟩
  rintro a ha b hb rfl
  simpa [ha] using (List.mem_filter.mp hb).2

/-- Names follow each other by their first place in the list that decides, and the others by the
alphabet. -/
theorem orderVariables_pairwise (order : List String) (h : names.Pairwise (· < ·)) :
    (orderVariables order names).Pairwise fun u v =>
      order.idxOf u < order.idxOf v ∨ u ∉ order ∧ v ∉ order ∧ u < v := by
  have hrest : ∀ v ∈ names.filter fun s => !(order.eraseDups.filter names.contains).contains s,
      v ∉ order := by
    intro v hv ho
    obtain ⟨hv, hnot⟩ := List.mem_filter.mp hv
    simp [ho, hv] at hnot
  refine List.pairwise_append.mpr ⟨((pairwise_eraseDups order).filter _).imp .inl, ?_, ?_⟩
  · exact (h.filter _).imp_of_mem fun hu hv huv => .inr ⟨hrest _ hu, hrest _ hv, huv⟩
  · intro u hu v hv
    have hu : u ∈ order := List.mem_eraseDups.mp (List.mem_of_mem_filter hu)
    refine .inl ?_
    rw [List.idxOf_eq_length (hrest v hv)]
    exact List.idxOf_lt_length_of_mem hu

theorem parse_eq_ok {limits : Settings} {text : List Char} {e : Expression}
    (h : parse limits text = .ok e) :
    ∃ s t, Formula.plain limits text = .ok s ∧ Formula.parsePlain limits s = .ok t ∧
      e = describe text s t := by
  obtain ⟨s, hs, h⟩ := bind_eq_ok.mp h
  obtain ⟨t, ht, h⟩ := bind_eq_ok.mp h
  cases h
  cases hp : Formula.plain limits text with
  | error r => rw [hp] at hs; cases hs
  | ok s' =>
    rw [hp] at hs
    cases hs
    exact ⟨s, t, rfl, ht, rfl⟩

end Simultaneous.Expression
