import Mathlib.Data.Bool.AllAny
import Simultaneous.Proofs.Attempt
import Simultaneous.Proofs.Formula.Passes
import Simultaneous.Proofs.Text.Brackets

/-!
Which texts have a plain form. No pass adds, removes or moves a bracket, so that the brackets are
checked in the plain form as they stand in the text itself.
-/

namespace Simultaneous.Formula

open Text

theorem isKept_isBracket : IsKept isBracket :=
  .of_forall (List.all_iff_forall_prop.mp (by decide)) (fun _ => mem_of_isBracket)
    (List.all_iff_forall_prop.mp (by decide))

theorem SignBlock.brackets_eq {u v : List Char} (h : SignBlock u v) :
    brackets u = brackets v := by
  obtain ⟨-⟩ := h
  unfold plainSign
  split <;> rfl

theorem RaisedBlock.brackets_eq {u v : List Char} (h : RaisedBlock u v) :
    brackets u = brackets v := by
  cases h with
  | first raised | next raised =>
    unfold raised? at raised
    split at raised <;> cases raised <;> rfl

/-- The plain form has the brackets of the text. -/
theorem brackets_inPlainSigns (s : List Char) : brackets (inPlainSigns s) = brackets s := by
  have hsigns := (respells_plainSign s).filter_eq fun _ _ => SignBlock.brackets_eq
  have hraised :=
    (respells_lowerRaised false (s.flatMap plainSign)).filter_eq fun _ _ => RaisedBlock.brackets_eq
  calc brackets (inPlainSigns s) = brackets (lowerRaised false (s.flatMap plainSign)) :=
        isKept_isBracket.filter_spellOut _
    _ = brackets (s.flatMap plainSign) := hraised.symm
    _ = brackets s := hsigns.symm

theorem occursIn_iff {p s : List Char} : occursIn p s = true ↔ p <:+: s := by
  induction s with
  | nil => rw [occursIn, List.isEmpty_iff, List.infix_nil]
  | cons c s ih =>
    rw [occursIn, Bool.or_eq_true, List.isPrefixOf_iff_prefix, ih, List.infix_cons_iff]

theorem findForbidden?_eq_none_iff {s : List Char} :
    findForbidden? s = none ↔ ∀ token ∈ forbidden, ¬ token.toList <:+: s := by
  simp only [findForbidden?, List.find?_eq_none, occursIn_iff]

/-- What a text without blanks around it has to be to have a plain form. -/
structure Acceptable (limits : Settings) (s : List Char) : Prop where
  nonempty : s ≠ []
  short : (s.length : Int) ≤ limits.maxLength
  harmless : ∀ token ∈ forbidden, ¬ token.toList <:+: lower s
  nested : Nested s

/-- The code of the first condition that a text fails. -/
inductive FirstFault (limits : Settings) (s : List Char) : String → Prop
  | empty (h : s = []) : FirstFault limits s "EMPTY_INPUT"
  | tooLong (nonempty : s ≠ []) (h : limits.maxLength < (s.length : Int)) :
      FirstFault limits s "TOO_LONG"
  | forbiddenToken (nonempty : s ≠ []) (short : (s.length : Int) ≤ limits.maxLength)
      {token : String} (mem : token ∈ forbidden) (h : token.toList <:+: lower s) :
      FirstFault limits s "FORBIDDEN_TOKEN"
  | unbalanced (nonempty : s ≠ []) (short : (s.length : Int) ≤ limits.maxLength)
      (harmless : ∀ token ∈ forbidden, ¬ token.toList <:+: lower s) (h : ¬ Nested s) :
      FirstFault limits s "UNBALANCED_PARENS"

theorem FirstFault.not_acceptable {limits : Settings} {s : List Char} {code : String}
    (h : FirstFault limits s code) : ¬ Acceptable limits s := by
  intro ha
  cases h with
  | empty h => exact ha.nonempty h
  | tooLong nonempty h => exact Int.not_le.mpr h ha.short
  | forbiddenToken nonempty short mem h => exact ha.harmless _ mem h
  | unbalanced nonempty short harmless h => exact h ha.nested

theorem balance_inPlainSigns_iff {s : List Char} :
    balance (inPlainSigns s) = .balanced ↔ Nested s :=
  balance_eq_balanced_iff.trans (nested_iff_of_brackets_eq (brackets_inPlainSigns s))

open Attempt in
theorem plain_ensures (limits : Settings) (text : List Char) :
    Ensures (fun t => t = inPlainSigns (trim text) ∧ Acceptable limits (trim text))
      (fun r => FirstFault limits (trim text) r.code) (plain limits text) := by
  rw [plain]
  simp only [List.isEmpty_iff]
  split
  next hempty => exact .error (.empty hempty)
  next hnonempty =>
  split
  next hlong => exact .error (.tooLong hnonempty hlong)
  next hshort =>
  have hshort := Int.not_lt.mp hshort
  split
  next token hfound =>
    have hoccurs := List.find?_some hfound
    exact .error (.forbiddenToken hnonempty hshort (List.mem_of_find?_eq_some hfound)
      (occursIn_iff.mp hoccurs))
  next hnone =>
  have hharmless := findForbidden?_eq_none_iff.mp hnone
  split
  next hbalanced =>
    exact .ok ⟨rfl, hnonempty, hshort, hharmless, balance_inPlainSigns_iff.mp hbalanced⟩
  next position hbroken =>
    refine .error (.unbalanced hnonempty hshort hharmless fun hnested => ?_)
    rw [balance_inPlainSigns_iff.mpr hnested] at hbroken
    cases hbroken

/-- A text has a plain form just when, without the blanks around it, it is acceptable; and the code
of a refusal names the first condition that it fails. -/
theorem exists_plain_iff (limits : Settings) (text : List Char) :
    ((∃ t, plain limits text = .ok t) ↔ Acceptable limits (trim text)) ∧
      ∀ r, plain limits text = .error r → FirstFault limits (trim text) r.code := by
  have hensures := plain_ensures limits text
  refine ⟨⟨fun ⟨t, ht⟩ => (hensures.of_eq_ok ht).2, fun hacceptable => ?_⟩, fun r hr =>
    hensures.of_eq_error hr⟩
  cases hplain : plain limits text with
  | ok t => exact ⟨t, rfl⟩
  | error r => exact absurd hacceptable (hensures.of_eq_error hplain).not_acceptable

end Simultaneous.Formula
