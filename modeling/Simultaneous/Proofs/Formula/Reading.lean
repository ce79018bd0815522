import Simultaneous.EquationSystem
import Simultaneous.Proofs.Formula.Mishaps

/-!
What reading fails with. The meaning of a phrase is worked out part by part, so that a mishap in a
part is one of the whole; everything else that is wrong with a text is a reason to refuse it.
-/

namespace Simultaneous

open Attempt

namespace Formula

open Datum

namespace Phrase

theorem regular_of_spread {a : Phrase} (h : Regular (spread a).meaning) : Regular a.meaning := by
  rw [meaning] at h
  cases ha : a.meaning with
  | ok x => exact regular_ok x
  | error e =>
    rw [ha] at h
    exact .error (h.of_eq_error rfl)

mutual

theorem regular_meaning : ∀ p : Phrase, Regular p.meaning
  | nothing | truth _ | dots | int _ | text _ | bytes => by
    rw [meaning]
    exact regular_ok _
  | name s => by
    rw [meaning]
    split
    · exact regular_ok _
    · exact regular_broken (.undefinedName s)
  | unary op a => by
    rw [meaning]
    exact (regular_meaning a).bind (regular_unary op)
  | binary op a b => by
    rw [meaning]
    exact (regular_meaning a).bind fun x => (regular_meaning b).bind (regular_binary op x)
  | compare first rest => by
    rw [meaning]
    exact (regular_meaning first).bind fun x => regular_comparisonMeaning x rest
  | both a b => by
    rw [meaning]
    apply (regular_meaning a).bind
    intro x
    exact (regular_truthy x).bind fun t => (regular_meaning b).ite (regular_pure x)
  | either a b => by
    rw [meaning]
    apply (regular_meaning a).bind
    intro x
    exact (regular_truthy x).bind fun t => (regular_pure x).ite (regular_meaning b)
  | negation a => by
    rw [meaning]
    apply (regular_meaning a).bind
    intro x
    exact (regular_truthy x).bind fun t => regular_pure _
  | choice a condition b => by
    rw [meaning]
    apply (regular_meaning condition).bind
    intro c
    exact (regular_truthy c).bind fun t => (regular_meaning a).ite (regular_meaning b)
  | tuple items => by
    rw [meaning]
    exact (regular_meanings items).bind fun xs => regular_pure _
  | list items => by
    rw [meaning]
    exact (regular_meanings items).bind fun xs => regular_pure _
  | set items => by
    rw [meaning]
    exact (regular_meanings items).bind fun xs => (regular_pure _).ite regular_senseless
  | record entries => by
    rw [meaning]
    exact (regular_entryMeanings entries).bind fun es => (regular_pure _).ite regular_senseless
  | spread a => by
    rw [meaning]
    exact (regular_meaning a).bind fun x => regular_senseless
  | call f args => by
    rw [meaning]
    apply (regular_meaning f).bind
    intro g
    apply (regular_meanings args).bind
    intro xs
    split
    · exact regular_senseless.ite (regular_callDatum _ xs)
    · exact regular_senseless
  | keyword _ a => by
    rw [meaning]
    exact regular_meaning a
  | select a _ => by
    rw [meaning]
    exact (regular_meaning a).bind fun x => regular_senseless
  | item a index => by
    rw [meaning]
    exact (regular_meaning a).bind fun x => (regular_meaning index).bind (regular_itemAt x)
  | slice bounds => by
    rw [meaning]
    exact (regular_boundsAreInts bounds).bind fun t => (regular_pure _).ite regular_senseless

theorem regular_meanings : ∀ ps : List Phrase, Regular (meanings ps)
  | [] => by
    rw [meanings]
    exact regular_ok _
  | p :: rest => by
    have hp := regular_meaning p
    have hrest := regular_meanings rest
    rw [meanings.eq_def]
    split
    next h => cases h
    next a others h =>
      cases h
      apply (regular_of_spread hp).bind
      intro x
      split
      · exact hrest.bind fun ys => regular_pure _
      · exact regular_senseless
    next q others hq h =>
      cases h
      exact hp.bind fun x => hrest.bind fun ys => regular_pure _

theorem regular_entryMeanings : ∀ es : List (Phrase × Phrase), Regular (entryMeanings es)
  | [] => by
    rw [entryMeanings]
    exact regular_ok _
  | (k, v) :: rest => by
    rw [entryMeanings]
    apply (regular_meaning k).bind
    intro x
    apply (regular_meaning v).bind
    intro y
    exact (regular_entryMeanings rest).bind fun es => regular_pure _

theorem regular_comparisonMeaning (a : Datum) :
    ∀ rest : List (Relation × Phrase), Regular (comparisonMeaning a rest)
  | [] => by
    rw [comparisonMeaning]
    exact regular_ok _
  | (r, p) :: rest => by
    rw [comparisonMeaning]
    apply (regular_meaning p).bind
    intro b
    apply (regular_compare r a b).bind
    intro d
    apply (regular_pure d).ite
    exact (regular_truthy d).bind fun t => (regular_comparisonMeaning b rest).ite (regular_pure d)

theorem regular_boundsAreInts : ∀ bounds : List (Option Phrase), Regular (boundsAreInts bounds)
  | [] => by
    rw [boundsAreInts]
    exact regular_ok _
  | none :: rest => by
    rw [boundsAreInts]
    exact regular_boundsAreInts rest
  | some p :: rest => by
    rw [boundsAreInts]
    apply (regular_meaning p).bind
    intro d
    exact (regular_boundsAreInts rest).bind fun more => regular_pure _

end

end Phrase

/-- What reading a text fails with: the text is refused, or there is a mishap. -/
inductive Unread : Failure → Prop
  | refused (reason : Refusal) : Unread (.refused reason)
  | broken {reason : Breakage} (h : Mishap reason) : Unread (.broken reason)

theorem datumOf_ensures (s : List Char) : Ensures (fun _ => True) Unread (datumOf s) := by
  rw [datumOf]
  split
  · exact .error (.refused _)
  next p _ =>
  split
  · exact .error (.broken (.nestedTooDeep _))
  cases hp : p.meaning with
  | ok d => exact .ok trivial
  | error e =>
    cases p.regular_meaning.of_eq_error hp with
    | senseless => exact .error (.refused _)
    | broken h => exact .error (.broken h)

theorem mapError_refused_ensures {α : Type} (x : Except Refusal α) :
    Ensures (fun _ => True) Unread (x.mapError Failure.refused) := by
  cases x with
  | ok a => exact .ok trivial
  | error r => exact .error (.refused r)

theorem parsePlain_ensures (limits : Settings) (s : List Char) :
    Ensures (fun _ => True) Unread (parsePlain limits s) :=
  (datumOf_ensures s).bind fun d _ => mapError_refused_ensures (acceptDatum limits d)

end Formula

open Formula

theorem Expression.parse_ensures (limits : Settings) (text : List Char) :
    Ensures (fun _ => True) Unread (Expression.parse limits text) := by
  apply (mapError_refused_ensures (plain limits text)).bind
  intro s _
  exact (parsePlain_ensures limits s).bind fun e _ => .ok trivial

theorem Expression.spelled?_ensures (s : String) :
    Ensures (fun _ => True) Unread (Expression.spelled? s) := by
  rw [spelled?]
  split
  · exact .ok trivial
  next b h => exact .error ((datumOf_ensures _).of_eq_error h)
  · exact .ok trivial

theorem Expression.ofLiteral_ensures (v : Literal) :
    Ensures (fun _ => True) Unread (Expression.ofLiteral v) := by
  rw [ofLiteral.eq_def]
  split
  · exact .ok trivial
  · exact .ok trivial
  next s =>
    apply (Expression.spelled?_ensures s).bind
    intro d _
    split
    · exact .ok trivial
    · exact .error (.refused _)
    · exact .error (.refused _)
  · split
    · exact .error (.refused _)
    · exact .error (.refused _)

theorem Equation.Side.read_ensures (limits : Settings) (side : Side) :
    Ensures (fun _ => True) Unread (side.read limits) := by
  rw [read.eq_def]
  split
  · exact .ok trivial
  next s => exact Expression.parse_ensures limits s.toList
  next v _ => exact Expression.ofLiteral_ensures v

theorem Equation.Given.read_ensures (limits : Settings) (g : Given) :
    Ensures (fun _ => True) Unread (g.read limits) := by
  cases g with
  | text s =>
    rw [read.eq_def]
    simp only
    split
    · exact (Expression.parse_ensures limits _).bind fun a _ => .ok trivial
    · apply (Expression.parse_ensures limits _).bind
      intro a _
      exact (Expression.parse_ensures limits _).bind fun b _ => .ok trivial
    · exact .error (.refused _)
  | sides a b =>
    apply (a.read_ensures limits).bind
    intro _ _
    exact (b.read_ensures limits).bind fun _ _ => .ok trivial
  | bare a => exact (a.read_ensures limits).bind fun _ _ => .ok trivial
  | several n => exact .error (.refused _)
  | other shown => exact .error (.refused _)

namespace EquationSystem

theorem readAll_ensures (limits : Settings) (gs : List Equation.Given) :
    Ensures (fun _ => True) Unread (readAll limits gs) := by
  induction gs with
  | nil => exact .ok trivial
  | cons g gs ih =>
    apply (g.read_ensures limits).bind
    intro e _
    exact ih.bind fun es _ => .ok trivial

end EquationSystem

end Simultaneous
