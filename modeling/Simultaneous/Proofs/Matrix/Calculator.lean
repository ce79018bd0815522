import Simultaneous.Matrix.Calculator
import Simultaneous.Proofs.Double.Order
import Simultaneous.Proofs.Matrix.Data
import Simultaneous.Proofs.Matrix.Elimination

/-!
What the calculator comes to. Its operations give tables of numbers or report a fault; what escapes
of a call is what escapes of reading one of its operands.
-/

namespace Simultaneous.Matrix

open Attempt

/-- With a tolerance above zero no pivot that is large enough is zero. -/
theorem Singular.eq_noPivot {tolerance : Float} (htolerance : 0 < tolerance) {f : Failure}
    (h : Singular tolerance f) : ∃ column, f = .matrix (.noPivot column) false := by
  cases h with
  | noPivot column => exact ⟨column, rfl⟩
  | @zeroPivot x pivot large over?_eq =>
    have hzero : (pivot == 0) = true := by
      by_contra hne
      simp [Scalar.over?, hne] at over?_eq
    have hsmall : pivot.abs < tolerance := by rwa [Double.abs_eq_zero hzero]
    exact absurd (decide_eq_true hsmall) large

/-- A fault that is reported. -/
def IsFault (f : Failure) : Prop := ∃ m, f = .matrix m false

section

variable {a b : Matrix Float} (ha : a.WellFormed) (hb : b.WellFormed)

include ha hb

theorem combine_ensures (g : Float → Float → Float) :
    Ensures WellFormed IsFault (combine g a b) := by
  by_cases hrows : a.rows = b.rows
  · by_cases hcols : a.cols = b.cols
    · have hb' : b.HasShape a.rows a.cols := ⟨hb, hrows.symm, hcols.symm⟩
      obtain ⟨d, hd, hshape⟩ := combine_eq_ok (f := g) ⟨ha, rfl, rfl⟩ hb'
      rw [hd]
      exact .ok hshape.toWellFormed
    · have hdiffer : requireSameShape a b =
          .error (.matrix (.colsDiffer a.cols b.cols) false) := by
        rw [requireSameShape, if_neg (not_not.mpr hrows), if_pos hcols]
      rw [combine, hdiffer, error_bind]
      exact .error ⟨_, rfl⟩
  · have hdiffer : requireSameShape a b = .error (.matrix (.rowsDiffer a.rows b.rows) false) :=
      if_pos hrows
    rw [combine, hdiffer, error_bind]
    exact .error ⟨_, rfl⟩

theorem mul_ensures : Ensures WellFormed IsFault (a.mul b) := by
  by_cases hfit : a.cols = b.rows
  · have hb' : b.HasShape a.cols b.cols := ⟨hb, hfit.symm, rfl⟩
    obtain ⟨d, hd, hshape⟩ := mul_eq_ok ⟨ha, rfl, rfl⟩ hb'
    rw [hd]
    exact .ok hshape.toWellFormed
  · rw [mul, if_pos hfit]
    exact .error ⟨_, rfl⟩

end

theorem inv_ensures_fault {tolerance : Float} (htolerance : 0 < tolerance) {a : Matrix Float}
    (ha : a.WellFormed) : Ensures WellFormed IsFault (a.inv tolerance) := by
  by_cases hsquare : a.rows = a.cols
  · refine (inv_ensures tolerance ⟨ha, rfl, hsquare.symm⟩).imp (fun d h => h.toWellFormed) ?_
    intro f hf
    obtain ⟨column, rfl⟩ := hf.eq_noPivot htolerance
    exact ⟨_, rfl⟩
  · rw [inv, if_pos hsquare]
    exact .error ⟨_, rfl⟩

theorem require_ensures {a : Option (Matrix Float)} (ha : ∀ m ∈ a, m.WellFormed) :
    Ensures WellFormed IsFault (require a) := by
  cases a with
  | none => exact .error ⟨_, rfl⟩
  | some m => exact .ok (ha m rfl)

/-- An operation on tables gives a table or reports a fault. -/
theorem operate_ensures {tolerance : Float} (htolerance : 0 < tolerance) (op : Operation)
    {a b : Option (Matrix Float)} (ha : ∀ m ∈ a, m.WellFormed) (hb : ∀ m ∈ b, m.WellFormed) :
    Ensures WellFormed IsFault (operate tolerance op a b) := by
  apply (require_ensures ha).bind
  intro a ha
  cases op with
  | inv => exact inv_ensures_fault htolerance ha
  | add => exact (require_ensures hb).bind fun b hb => combine_ensures ha hb _
  | sub => exact (require_ensures hb).bind fun b hb => combine_ensures ha hb _
  | mul => exact (require_ensures hb).bind fun b hb => mul_ensures ha hb

theorem operandOf_ensures (v : Literal) :
    Ensures (fun a => ∀ m ∈ a, m.WellFormed) (Unread v) (operandOf v) := by
  have hmap : ∀ x : Attempt (Matrix Float), Ensures WellFormed (Unread v) x →
      Ensures (fun a : Option (Matrix Float) => ∀ m ∈ a, m.WellFormed) (Unread v)
        (x.map some) := by
    intro x hx
    cases hx with
    | ok h => exact .ok fun m hm => Option.some.inj hm ▸ h
    | error h => exact .error h
  unfold operandOf
  split
  · exact .ok fun m hm => nomatch hm
  next s => exact hmap _ (parse_ensures s)
  next =>
    refine hmap _ ((ofLiteral_ensures v).imp (fun _ h => h) fun f h => ?_)
    obtain ⟨m, rfl⟩ | ⟨rfl, huge⟩ := h
    · exact .fault m
    · exact .broken (.hugeCell huge)

theorem Escapes.operandOf_eq {v : Literal} {reason : Breakage} (h : Escapes v reason) :
    operandOf v = .error (.broken reason) := by
  cases h with
  | hugeCell huge =>
    obtain ⟨grid, hgrid, -⟩ := id huge
    have hlist : operandOf v = (ofLiteral v).map some := by
      unfold operandOf
      split
      next => cases hgrid
      next => cases hgrid
      next => rfl
    rw [hlist, huge.ofLiteral_eq]
    rfl
  | writtenHugeCell nonblank read_eq huge =>
    rw [operandOf, parse_eq_ofLiteral nonblank read_eq, huge.ofLiteral_eq]
    rfl
  | nestedTooDeep nonblank read_eq fault_eq =>
    rw [operandOf, parse_nestedTooDeep nonblank read_eq fault_eq]
    rfl

/-- What breaks an operation: its first operand, or the second one where that is read. -/
inductive Breaks (op : Operation) (a b : Literal) (reason : Breakage) : Prop
  | left (escapes : Escapes a reason)
  | right (binary : op.isUnary = false) {left : Option (Matrix Float)}
      (left_eq : operandOf a = .ok left) (escapes : Escapes b reason)

theorem Breaks.calculation_eq {settings : Settings} {op : Operation} {a b : Literal}
    {reason : Breakage} (h : Breaks op a b reason) :
    calculation settings op a b = .error (.broken reason) := by
  cases h with
  | left escapes => rw [calculation, escapes.operandOf_eq, error_bind]
  | right binary left_eq escapes =>
    rw [calculation, left_eq, ok_bind, binary, if_neg nofun, escapes.operandOf_eq, error_bind]

theorem calculation_ensures {settings : Settings} (htolerance : 0 < settings.pivotTolerance)
    (op : Operation) (a b : Literal) :
    Ensures (fun c => (∀ m ∈ c.1, m.WellFormed) ∧ c.2.WellFormed)
      (fun f => IsFault f ∨ ∃ reason, f = .broken reason ∧ Breaks op a b reason)
      (calculation settings op a b) := by
  rw [calculation]
  have hread := operandOf_ensures a
  cases hleft : operandOf a with
  | error f =>
    cases hread.of_eq_error hleft with
    | fault m => exact .error (.inl ⟨m, rfl⟩)
    | broken escapes => exact .error (.inr ⟨_, rfl, .left escapes⟩)
  | ok left =>
  have hoperand := hread.of_eq_ok hleft
  have hrest : ∀ right : Option (Matrix Float), (∀ m ∈ right, m.WellFormed) →
      Ensures (fun c => (∀ m ∈ c.1, m.WellFormed) ∧ c.2.WellFormed)
        (fun f => IsFault f ∨ ∃ reason, f = .broken reason ∧ Breaks op a b reason) (do
          let result ← operate settings.pivotTolerance op left right
          return (left.toList ++ right.toList, result)) := by
    intro right hright
    apply ((operate_ensures htolerance op hoperand hright).imp (fun _ h => h) fun _ => .inl).bind
    intro result hresult
    refine .ok ⟨fun m hm => ?_, hresult⟩
    obtain hm | hm := List.mem_append.mp hm
    · exact hoperand m (Option.mem_toList.mp hm)
    · exact hright m (Option.mem_toList.mp hm)
  rw [ok_bind]
  split
  · exact hrest none fun m hm => nomatch hm
  next hbinary =>
    refine ((operandOf_ensures b).imp (fun _ h => h) fun f hf => ?_).bind hrest
    cases hf with
    | fault m => exact .inl ⟨m, rfl⟩
    | broken escapes => exact .inr ⟨_, rfl, .right (by simpa using hbinary) hleft escapes⟩

section

variable {settings : Settings} {operation : String} {op : Operation}
  (hop : Operation.ofName? operation = some op) {a b : Literal}

include hop

theorem calculate_of_ok {c : List (Matrix Float) × Matrix Float}
    (h : calculation settings op a b = .ok c) :
    calculate settings operation a b = .ok {
      ok := true
      operation
      result := some c.2.cells
      operands := some (c.1.map (·.cells)) } := by
  rw [calculate, hop]
  simp only [h]

theorem calculate_of_error {f : Failure} (h : calculation settings op a b = .error f) :
    calculate settings operation a b = reportOf operation f := by
  rw [calculate, hop]
  simp only [h]

theorem calculate_of_breaks {reason : Breakage} (h : Breaks op a b reason) :
    calculate settings operation a b = .error (.broken reason) :=
  calculate_of_error hop h.calculation_eq

end

/-- What escapes of a calculation is an integer beyond the doubles, or a written literal with too
many lists inside each other, in an operand that the operation reads. Any other call has a result:
a failed one has a message and a code, a successful one tables of numbers. -/
theorem calculate_escapes {settings : Settings} (htolerance : 0 < settings.pivotTolerance)
    (operation : String) (a b : Literal) :
    (∀ f, calculate settings operation a b = .error f ↔
      ∃ op, Operation.ofName? operation = some op ∧
        ∃ reason, f = .broken reason ∧ Breaks op a b reason) ∧
    ∀ r, calculate settings operation a b = .ok r →
      (r.ok = false → (∃ message, r.error = some message) ∧ ∃ code, r.errorCode = some code) ∧
      (r.ok = true → (∃ cells, r.result = some cells ∧ IsTable cells) ∧
        ∃ operands, r.operands = some operands ∧ ∀ cells ∈ operands, IsTable cells) := by
  cases hop : Operation.ofName? operation with
  | none =>
    rw [calculate, hop]
    refine ⟨fun f => ⟨fun hf => (nomatch hf), fun ⟨_, hsome, _⟩ => nomatch hsome⟩, fun r hr => ?_⟩
    cases hr
    exact ⟨fun _ => ⟨⟨_, rfl⟩, _, rfl⟩, fun h => nomatch h⟩
  | some op =>
    have hbreaks : ∀ f, (∃ op', some op = some op' ∧ ∃ reason, f = .broken reason ∧
        Breaks op' a b reason) → calculate settings operation a b = .error f := by
      rintro _ ⟨op', hsome, reason, rfl, hreason⟩
      obtain rfl := Option.some.inj hsome
      exact calculate_of_breaks hop hreason
    have hensures := calculation_ensures htolerance op a b
    cases hcalculation : calculation settings op a b with
    | ok c =>
      have hcalculate := calculate_of_ok hop hcalculation
      obtain ⟨hoperands, hresult⟩ := hensures.of_eq_ok hcalculation
      refine ⟨fun f => ⟨fun hf => (nomatch hcalculate.symm.trans hf), hbreaks f⟩, fun r hr => ?_⟩
      obtain rfl := Except.ok.inj (hcalculate.symm.trans hr)
      refine ⟨fun h => (nomatch h), fun _ => ⟨⟨_, rfl, hresult.isTable⟩, _, rfl, ?_⟩⟩
      intro cells hcells
      obtain ⟨m, hm, rfl⟩ := List.mem_map.mp hcells
      exact (hoperands m hm).isTable
    | error g =>
      have hcalculate := calculate_of_error hop hcalculation
      obtain ⟨m, rfl⟩ | ⟨reason, rfl, hreason⟩ := hensures.of_eq_error hcalculation
      · refine ⟨fun f => ⟨fun hf => (nomatch hcalculate.symm.trans hf), hbreaks f⟩,
          fun r hr => ?_⟩
        obtain rfl := Except.ok.inj (hcalculate.symm.trans hr)
        exact ⟨fun _ => ⟨⟨_, rfl⟩, _, rfl⟩, fun h => nomatch h⟩
      · refine ⟨fun f => ⟨fun hf => ?_, hbreaks f⟩, fun r hr => nomatch hcalculate.symm.trans hr⟩
        obtain rfl := Except.error.inj (hcalculate.symm.trans hf)
        exact ⟨op, rfl, reason, rfl, hreason⟩

theorem calculate_escapes_product :
    0 < ({} : Settings).pivotTolerance ∧
    ∃ r, calculate {} "mul" (.str "[[1, 2], [3, 4]]") (.list [.list [.int 1], .list [.int 1]]) =
      .ok r ∧ r.ok = true ∧ (∃ cells, r.result = some cells ∧ IsTable cells) ∧
      ∃ operands, r.operands = some operands ∧ ∀ cells ∈ operands, IsTable cells := by
  have htolerance : 0 < ({} : Settings).pivotTolerance := by decide +kernel
  have hsucceeds : Attempt.passes (fun r => r.ok)
      (calculate {} "mul" (.str "[[1, 2], [3, 4]]") (.list [.list [.int 1], .list [.int 1]])) =
        true := by
    decide +kernel
  obtain ⟨r, hr, hok⟩ := Attempt.exists_of_passes hsucceeds
  obtain ⟨-, hresult⟩ := calculate_escapes htolerance "mul" (.str "[[1, 2], [3, 4]]")
    (.list [.list [.int 1], .list [.int 1]])
  exact ⟨htolerance, r, hr, hok, (hresult r hr).2 hok⟩

theorem hasHugeCell_single {n : Int} (hn : Decimal.ofInt? n = none) :
    HasHugeCell (.list [.list [.int n]]) :=
  ⟨[[.int n]], rfl, [], n, [], rfl, List.forall_mem_nil _, hn⟩

/-- An integer beyond the doubles as a cell is not reported. -/
theorem hugeCell_escapes :
    calculate {} "inv" (.list [.list [.int (Int.pow 10 309)]]) .null =
      .error (.broken (.notFloat .tooLarge)) := by
  have hhuge : Decimal.ofInt? (Int.pow 10 309) = none := by decide +kernel
  have hop : Operation.ofName? "inv" = some .inv := by decide
  exact calculate_of_breaks hop (.left (.hugeCell (hasHugeCell_single hhuge)))

end Simultaneous.Matrix
