import Simultaneous.Formula.Parse
import Simultaneous.Proofs.Attempt

/-!
What can go wrong unforeseen when a formula is worked out: a name without a meaning, a division by
zero, a member or a key that is not there, or a phrase with too many levels.
-/

namespace Simultaneous.Formula

open Attempt Datum

inductive Mishap : Breakage → Prop
  | undefinedName (name : String) : Mishap (.undefinedName name)
  | quotientByZero : Mishap .quotientByZero
  | remainderByZero : Mishap .remainderByZero
  | moduloByZero : Mishap .moduloByZero
  | divisionByZeroNumber : Mishap .divisionByZeroNumber
  | indexOutOfRange (container : String) : Mishap (.indexOutOfRange container)
  | missingKey (shown : String) : Mishap (.missingKey shown)
  | nestedTooDeep (during : String) : Mishap (.nestedTooDeep during)

/-- A phrase makes no sense, or there is a mishap. -/
inductive Hitch.Known : Hitch → Prop
  | senseless : Known .senseless
  | broken {reason : Breakage} (h : Mishap reason) : Known (.broken reason)

/-- If there is no result, the hitch is a known one. -/
abbrev Regular {α : Type} (m : Meaning α) : Prop := Ensures (fun _ => True) Hitch.Known m

section

variable {α β : Type}

@[simp]
theorem regular_ok (a : α) : Regular (.ok a : Meaning α) := .ok trivial

@[simp]
theorem regular_pure (a : α) : Regular (pure a : Meaning α) := .ok trivial

@[simp]
theorem regular_senseless : Regular (senseless : Meaning α) := .error .senseless

theorem regular_broken {reason : Breakage} (h : Mishap reason) :
    Regular (.error (.broken reason) : Meaning α) := .error (.broken h)

theorem Regular.bind {m : Meaning α} {f : α → Meaning β} (h : Regular m)
    (hf : ∀ a, Regular (f a)) : Regular (m >>= f) := Ensures.bind h fun a _ => hf a

theorem Regular.ite {c : Prop} [Decidable c] {x y : Meaning α} (hx : Regular x) (hy : Regular y) :
    Regular (if c then x else y) := by
  split
  · exact hx
  · exact hy

theorem Regular.map {m : Meaning α} (h : Regular m) (f : α → β) : Regular (m.map f) := by
  cases h with
  | ok => exact .ok trivial
  | error h => exact .error h

end

namespace Datum

theorem regular_mixture (t : Tree) : Regular (mixture t) := by
  rw [mixture]
  split
  · exact regular_ok _
  · exact regular_senseless

theorem regular_floorQuotient (a b : Algebra.Expr) : Regular (floorQuotient a b) := by
  rw [floorQuotient.eq_def]
  split
  · split
    · split
      · exact regular_broken .quotientByZero
      · exact regular_broken .divisionByZeroNumber
    · exact regular_ok _
  · split
    · split
      · exact regular_broken .divisionByZeroNumber
      · exact regular_ok _
    · exact regular_ok _
  · simp only
    split <;> exact regular_ok _

theorem regular_remainder (a b : Algebra.Expr) : Regular (remainder a b) := by
  have hreal : ∀ x, Regular (remainderByZero x) := by
    intro x
    rw [remainderByZero]
    split
    · exact regular_ok _
    · exact regular_broken .remainderByZero
  rw [remainder.eq_def]
  split
  · split
    · split
      · exact regular_broken .remainderByZero
      · exact regular_broken .quotientByZero
    · exact regular_ok _
  · split
    · split
      · exact hreal _
      · exact regular_ok _
    · exact regular_ok _
  · split
    · exact regular_broken .remainderByZero
    · exact regular_ok _
  · split
    · exact regular_broken .moduloByZero
    · simp only
      split <;> exact regular_ok _

theorem regular_arithmetic (op : BinarySign) (a b : Algebra.Expr) : Regular (arithmetic op a b) := by
  cases op with
  | floorDiv => exact (regular_floorQuotient a b).map _
  | mod => exact (regular_remainder a b).map _
  | add | sub | mul | div | pow => exact regular_ok _
  | matMul | shiftLeft | shiftRight | both | either | exclusive => exact regular_senseless

theorem regular_bitwise (op : BinarySign) (m n : Int) : Regular (bitwise op m n) := by
  rw [bitwise.eq_def]
  split
  · exact regular_ok _
  · exact regular_ok _
  · exact regular_ok _
  · split
    · exact regular_senseless
    · exact regular_ok _
  · split
    · exact regular_senseless
    · exact regular_ok _
  · exact regular_senseless

theorem regular_logical (op : BinarySign) (a b : Datum) : Regular (logical op a b) := by
  rw [logical.eq_def]
  split
  · exact regular_senseless
  · split
    · exact regular_ok _
    · exact regular_ok _
    · exact regular_ok _
    · exact regular_ok _
    · exact regular_senseless

theorem regular_repeated (n : Int) (xs : List Datum) : Regular (repeated n xs) := by
  rw [repeated]
  split
  · exact regular_senseless
  · exact regular_ok _

theorem regular_collected (op : BinarySign) (a b : Datum) : Regular (collected op a b) := by
  rw [collected.eq_def]
  split <;> try split
  all_goals first
    | exact regular_ok _
    | exact regular_senseless
    | exact (regular_repeated _ _).map _

theorem regular_wholes (op : BinarySign) (m n : Int) : Regular (wholes op m n) := by
  rw [wholes.eq_def]
  split
  · exact regular_ok _
  · exact regular_ok _
  · exact regular_ok _
  · split
    · exact regular_broken .quotientByZero
    · exact regular_ok _
  · split
    · exact regular_broken .remainderByZero
    · exact regular_ok _
  · split
    · exact regular_senseless
    · exact regular_ok _
  · exact (regular_bitwise _ m n).map _

theorem regular_mixedArithmetic (op : BinarySign) (a b : Tree) :
    Regular (mixedArithmetic op a b) := by
  cases op with
  | add | sub | mul | div | pow | floorDiv | mod => exact regular_mixture _
  | matMul | shiftLeft | shiftRight | both | either | exclusive => exact regular_senseless

theorem regular_expressions (op : BinarySign) (a b : Datum) : Regular (expressions op a b) := by
  rw [expressions.eq_def]
  split
  · split
    · split
      · exact (regular_bitwise op _ _).map _
      · exact regular_logical op _ _
    · exact regular_arithmetic op _ _
  · exact regular_mixedArithmetic ..
  · exact regular_mixedArithmetic ..
  · exact regular_mixedArithmetic ..
  · split
    · exact regular_logical op _ _
    · exact regular_senseless

theorem regular_binary (op : BinarySign) (a b : Datum) : Regular (binary op a b) := by
  rw [binary]
  split
  · exact regular_collected op a b
  split
  · split
    · exact regular_collected op b a
    · exact regular_senseless
  split
  · split
    · exact (regular_bitwise op _ _).map _
    · exact regular_wholes op _ _
  · split
    · split
      · exact regular_logical op a b
      · exact regular_senseless
    · exact regular_expressions op _ b
  · split
    · split
      · exact regular_logical op a b
      · exact regular_senseless
    · exact regular_expressions op a _
  · exact regular_expressions op a b

theorem regular_unary (op : UnarySign) (a : Datum) : Regular (unary op a) := by
  rw [unary.eq_def]
  split <;> try split
  all_goals first
    | exact regular_ok _
    | exact regular_senseless
    | exact regular_mixture _

theorem regular_compareExprs (r : Relation) (kind : String) (a b : Algebra.Expr) :
    Regular (compareExprs r kind a b) := by
  rw [compareExprs.eq_def]
  apply Regular.ite regular_senseless
  apply Regular.ite
  · split
    · exact regular_ok _
    · split <;> exact regular_ok _
  · apply Regular.ite _ (regular_ok _)
    apply Regular.ite (regular_ok _)
    exact (regular_ok _).ite (regular_ok _)

theorem regular_compareOrder (r : Relation) (kind : String) (a b : Datum) :
    Regular (compareOrder r kind a b) := by
  rw [compareOrder.eq_def]
  simp only
  split
  · exact regular_compareExprs ..
  · exact regular_compareExprs ..
  · exact regular_compareExprs ..
  · exact regular_ok _
  · exact regular_ok _
  · exact regular_ok _
  · exact regular_ok _
  · split
    · exact regular_ok _
    · exact regular_senseless

theorem regular_isMember (a b : Datum) : Regular (isMember a b) := by
  rw [isMember.eq_def]
  split
  · exact regular_ok _
  · exact regular_senseless
  · split
    · exact regular_ok _
    · exact regular_senseless

theorem regular_compare (r : Relation) (a b : Datum) : Regular (compare r a b) := by
  cases r with
  | equal | unequal | isSame | isOther => exact regular_ok _
  | less | lessEqual | greater | greaterEqual => exact regular_compareOrder ..
  | isIn | isNotIn => exact (regular_isMember a b).map _

theorem regular_truthy (a : Datum) : Regular a.truthy := by
  rw [truthy.eq_def]
  split
  all_goals first
    | exact regular_ok _
    | exact regular_senseless

theorem regular_callFunction (f : Algebra.Fn) (args : List Datum) :
    Regular (callFunction f args) := by
  rw [callFunction.eq_def]
  split
  · exact regular_ok _
  · exact regular_ok _
  · split
    · split
      · exact (regular_mixture _).ite regular_senseless
      · exact regular_senseless
    · exact regular_senseless

theorem regular_callSqrt (args : List Datum) : Regular (callSqrt args) := by
  have hunopened : ∀ a, Regular (callSqrt.unopened a) := by
    intro a
    rw [callSqrt.unopened]
    split
    · exact regular_mixture _
    · exact regular_senseless
  have hroot : ∀ a, Regular (callSqrt.root a) := by
    intro a
    rw [callSqrt.root.eq_def]
    split
    · exact regular_ok _
    · exact hunopened _
    · exact regular_senseless
  rw [callSqrt.eq_def]
  split
  · exact hroot _
  · exact hroot _
  · apply (regular_truthy _).bind
    intro b
    split
    · exact hroot _
    · split
      · exact regular_ok _
      · exact regular_senseless
      · exact regular_senseless
      · exact hunopened _
  · exact regular_senseless

theorem regular_callInteger (args : List Datum) : Regular (callInteger args) := by
  rw [callInteger.eq_def]
  split
  · split
    · exact regular_ok _
    · exact regular_senseless
  · split
    · exact regular_senseless
    · split
      · exact regular_ok _
      · exact regular_senseless
  · split
    · exact regular_ok _
    · exact regular_senseless
  · split
    · exact regular_ok _
    · exact regular_senseless
  · exact regular_senseless

theorem regular_floatOfText (s : String) : Regular (floatOfText s) := by
  rw [floatOfText]
  simp only
  split
  · exact regular_ok _
  split
  · exact regular_ok _
  split
  · exact regular_ok _
  · exact regular_senseless

theorem regular_floatOf (prec : Nat) (a : Datum) : Regular (floatOf prec a) := by
  rw [floatOf.eq_def]
  split
  · split <;> exact regular_ok _
  · split
    · exact regular_ok _
    · exact regular_senseless

theorem regular_callFloat (args : List Datum) : Regular (callFloat args) := by
  rw [callFloat.eq_def]
  split
  · exact regular_floatOfText _
  · exact regular_floatOf _ _
  · split
    · split
      · exact regular_senseless
      split
      · exact (regular_floatOfText _).bind fun d => regular_floatOf _ d
      · exact regular_floatOf _ _
    · exact regular_senseless
  · exact regular_senseless

theorem regular_callRational (args : List Datum) : Regular (callRational args) := by
  have hone : ∀ args, Regular (callRational.one args) := by
    intro args
    rw [callRational.one]
    split
    · exact regular_ok _
    · exact regular_ok _
    · exact regular_ok _
    · exact regular_senseless
  rw [callRational.eq_def]
  split
  · split
    · exact regular_ok _
    · exact hone _
  · exact hone _

theorem regular_callDatum (f : Callable) (args : List Datum) : Regular (callDatum f args) := by
  cases f with
  | function f => exact regular_callFunction f args
  | sqrt => exact regular_callSqrt args
  | integer => exact regular_callInteger args
  | float => exact regular_callFloat args
  | rational => exact regular_callRational args
  | symbol | maker =>
    rw [callDatum.eq_def]
    simp only
    split
    all_goals first
      | exact regular_ok _
      | exact regular_senseless
  | unknown name =>
    rw [callDatum]
    exact regular_senseless.ite ((regular_ok _).ite (regular_mixture _))

theorem regular_memberAt (container : String) (xs : List Datum) (i : Int) :
    Regular (memberAt container xs i) := by
  rw [memberAt]
  apply Regular.ite (regular_broken (.indexOutOfRange container))
  split
  · exact regular_ok _
  · exact regular_broken (.indexOutOfRange container)

theorem regular_itemAt (a index : Datum) : Regular (itemAt a index) := by
  rw [itemAt.eq_def]
  split
  · exact regular_ok _
  · exact regular_ok _
  · exact regular_ok _
  · split
    · exact regular_memberAt ..
    · exact regular_senseless
  · split
    · exact regular_memberAt ..
    · exact regular_senseless
  · split
    · exact regular_memberAt ..
    · exact regular_senseless
  · split
    · exact regular_senseless
    split
    · exact regular_ok _
    · exact regular_broken (.missingKey _)
  · exact regular_senseless

end Datum

end Simultaneous.Formula
