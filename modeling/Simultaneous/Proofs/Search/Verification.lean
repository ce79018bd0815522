import Simultaneous.Proofs.Evaluation
import Simultaneous.Search.Trial

/-!
The trial of a point in the equations that were left out. It succeeds just when all of them pass
there, and what it comes to decides how the trial of a reduction ends.
-/

namespace Simultaneous.Search

theorem placeOf?_ofNat (i n : Nat) : placeOf? (Int.ofNat i) n = if i < n then some i else none := by
  have h : 0 ≤ Int.ofNat i := Int.natCast_nonneg i
  rw [placeOf?, if_pos h]
  simp

variable {system : EquationSystem} {settings : Settings} {tolerance : Float} {point : Matrix Float}

theorem equationAt_ofNat (i : Nat) : (placeOf? (Int.ofNat i) system.equations.length).bind
    (system.equations[·]?) = system.equations[i]? := by
  rw [placeOf?_ofNat]
  split
  · rfl
  next h => simp [List.getElem?_eq_none (Nat.le_of_not_lt h)]

/-- What the trial of a point in the equations at some positions comes to. -/
inductive Verified (system : EquationSystem) (tolerance : Float) (point : Matrix Float)
    (is : List Nat) : Attempt Verdict → Prop
  | satisfied (passes : ∀ i ∈ is, ∃ e, system.equations[i]? = some e ∧
      e.PassesAt system.unknowns tolerance point) :
      Verified system tolerance point is (.ok .satisfied)
  | rejected {v : Verdict} {i : Nat} {e : Equation} (ne : v ≠ .satisfied) (mem : i ∈ is)
      (get : system.equations[i]? = some e) (fails : ¬ e.PassesAt system.unknowns tolerance point) :
      Verified system tolerance point is (.ok v)
  | tooLong {e : Equation} (mem : e ∈ system.equations) (unwritable : ¬ e.IsWritable) :
      Verified system tolerance point is (.error (.broken (.longInt none)))

theorem Verified.cons {i : Nat} {is : List Nat} {e : Equation} {v : Attempt Verdict}
    (h : Verified system tolerance point is v) (hget : system.equations[i]? = some e)
    (hpasses : e.PassesAt system.unknowns tolerance point) :
    Verified system tolerance point (i :: is) v := by
  cases h with
  | satisfied passes =>
    refine .satisfied fun j hj => ?_
    obtain rfl | hj := List.mem_cons.mp hj
    · exact ⟨e, hget, hpasses⟩
    · exact passes j hj
  | rejected ne mem get fails => exact .rejected ne (List.mem_cons_of_mem i mem) get fails
  | tooLong mem unwritable => exact .tooLong mem unwritable

theorem verified {is : List Nat} (hvalid : ∀ i ∈ is, i < system.equations.length) :
    Verified system tolerance point is (verify system tolerance point (is.map Int.ofNat)) := by
  induction is with
  | nil => exact .satisfied (by simp)
  | cons i is ih =>
    rw [List.map_cons, verify, equationAt_ofNat]
    split
    next hnone =>
      have hi : i < system.equations.length := hvalid i List.mem_cons_self
      rw [List.getElem?_eq_getElem hi] at hnone
      cases hnone
    next e hget =>
      split
      next f hf =>
        have hfails : ¬ e.PassesAt system.unknowns tolerance point := by
          rintro ⟨r, hr, -⟩
          rw [hf] at hr
          cases hr
        split
        next hb =>
          cases (e.residual_ensures _).of_eq_error hf with
          | evaluation detail => cases hb
          | tooLong unwritable => exact .tooLong (List.mem_of_getElem? hget) unwritable
        next => exact .rejected (by simp) (by simp) hget hfails
      next r hr =>
        split
        next hlt =>
          have hfails : ¬ e.PassesAt system.unknowns tolerance point := by
            rintro ⟨r', hr', hnot⟩
            rw [hr] at hr'
            cases hr'
            exact hnot hlt
          exact .rejected (by simp) (by simp) hget hfails
        next hlt =>
          have ih := ih fun j hj => hvalid j (List.mem_cons_of_mem i hj)
          exact ih.cons hget ⟨r, hr, hlt⟩

/-- A run that leaves its trial undecided: its point fails in an equation that was left out, or
there was no pivot and another reduction is to be tried. -/
inductive Undecided (system : EquationSystem) (settings : Settings) (removed : List Nat) :
    Attempt (Matrix Float) → Prop
  | refuted {x : Matrix Float} {i : Nat} {e : Equation} (mem : i ∈ removed)
      (get : system.equations[i]? = some e)
      (fails : ¬ e.PassesAt system.unknowns settings.tolerance x) :
      Undecided system settings removed (.ok x)
  | singular {column : Nat} {transient : Bool} (retry : settings.retrySingular = true) :
      Undecided system settings removed (.error (.matrix (.noPivot column) transient))

/-- What a run decides about its trial, if anything. -/
inductive Decided (system : EquationSystem) (settings : Settings) (removed : List Nat) :
    Attempt (Matrix Float) → Option (Attempt (Matrix Float)) → Prop
  | again {found : Attempt (Matrix Float)} (undecided : Undecided system settings removed found) :
      Decided system settings removed found none
  | accepted {x : Matrix Float} (passes : ∀ i ∈ removed, ∃ e, system.equations[i]? = some e ∧
      e.PassesAt system.unknowns settings.tolerance x) :
      Decided system settings removed (.ok x) (some (.ok x))
  | singular (column : Nat) (transient : Bool) :
      Decided system settings removed (.error (.matrix (.noPivot column) transient))
        (some (.error (.matrix (.noPivot column) true)))
  | failed (f : Failure) : Decided system settings removed (.error f) (some (.error f))
  | tooLong {x : Matrix Float} {e : Equation} (mem : e ∈ system.equations)
      (unwritable : ¬ e.IsWritable) :
      Decided system settings removed (.ok x) (some (.error (.broken (.longInt none))))

theorem decided {removed : List Nat} (hvalid : ∀ i ∈ removed, i < system.equations.length)
    (found : Attempt (Matrix Float)) : Decided system settings removed found
      ((judge system settings removed found).decision? settings.retrySingular) := by
  unfold judge
  split
  next column transient =>
    rw [Ending.decision?]
    split
    next h => exact .again (.singular h)
    next => exact .singular column transient
  next f _ => exact .failed f
  next x =>
    have h : Verified system settings.tolerance x removed _ := verified hvalid
    split
    next f hf =>
      rw [hf] at h
      cases h with
      | tooLong mem unwritable => exact .tooLong mem unwritable
    next hs =>
      rw [hs] at h
      cases h with
      | satisfied passes => exact .accepted passes
      | rejected ne => exact absurd rfl ne
    next v hne hv =>
      rw [hv] at h
      cases h with
      | satisfied => exact absurd rfl hne
      | rejected ne mem get fails => exact .again (.refuted mem get fails)

end Simultaneous.Search
