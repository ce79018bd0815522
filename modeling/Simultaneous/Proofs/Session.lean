import Simultaneous.Expression.Session
import Simultaneous.Proofs.Formula.Memory

/-!
What a session answers after a history of requests, next to what a session that begins under the
settings now in force answers. A form read lately is not examined again, so that limits lowered
since do not count for it; in all else the history makes no difference.
-/

namespace Simultaneous

open Algebra Attempt Formula

variable {limits : Settings} {text : List Char}

namespace Expression

/-- The ways of reading a text with a memory. -/
inductive Parsed (m : Memory) (limits : Settings) (text : List Char) :
    Attempt Expression × Memory → Prop
  | refused {r : Refusal} (h : plain limits text = .error r) :
      Parsed m limits text (.error (.refused r), m)
  | recalled {t : List Char} {e : Expr} (form : plain limits text = .ok t)
      (known : m.find? (String.ofList t) = some e) :
      Parsed m limits text (.ok (Expression.describe text t e), m.keep (String.ofList t) e)
  | read {t : List Char} {e : Expr} (form : plain limits text = .ok t)
      (unknown : m.find? (String.ofList t) = none) (h : parsePlain limits t = .ok e) :
      Parsed m limits text (.ok (Expression.describe text t e), m.keep (String.ofList t) e)
  | unread {t : List Char} {f : Failure} (form : plain limits text = .ok t)
      (unknown : m.find? (String.ofList t) = none) (h : parsePlain limits t = .error f) :
      Parsed m limits text (.error f, m)

theorem parsed (m : Memory) (limits : Settings) (text : List Char) :
    Parsed m limits text (parseWith m limits text) := by
  unfold parseWith Memory.parse
  cases form : plain limits text with
  | error r => exact .refused form
  | ok t =>
    cases known : m.find? (String.ofList t) with
    | some e => simpa only [known] using .recalled form known
    | none =>
      cases h : parsePlain limits t with
      | ok e => simpa only [known, h] using .read form known h
      | error f => simpa only [known, h] using .unread form known h

theorem parse_eq_parsePlain {t : List Char} (h : plain limits text = .ok t) :
    parse limits text = (do let e ← parsePlain limits t; return Expression.describe text t e) := by
  rw [parse, h]
  rfl

theorem parse_eq_refused {r : Refusal} (h : plain limits text = .error r) :
    parse limits text = .error (.refused r) := by
  rw [parse, h]
  rfl

end Expression

open Expression

namespace Session

theorem parse_begun (settings : Settings) (text : List Char) :
    (begun settings).parse text = Expression.parse settings text := by
  change (parseWith (begun settings).memory settings text).1 = _
  have hparsed := parsed (begun settings).memory settings text
  generalize parseWith _ _ text = result at hparsed ⊢
  cases hparsed with
  | refused h => exact (parse_eq_refused h).symm
  | recalled form known => cases known
  | read form unknown h | unread form unknown h =>
    rw [parse_eq_parsePlain form, h]
    rfl

/-- The plain form that a request leaves in memory, if it leaves one. -/
def uses (s : Session) : Request → List String
  | .assign _ _ => []
  | .parse text => match plain s.settings text, s.parse text with
    | .ok t, .ok _ => [String.ofList t]
    | _, _ => []

/-- The plain forms that were read in the course of several requests, the latest first. -/
def used (s : Session) : List Request → List String
  | [] => []
  | r :: rs => (s.next r).used rs ++ s.uses r

theorem recalls_next {s : Session} {forms : List String} (h : s.memory.Recalls forms)
    (r : Request) : (s.next r).memory.Recalls (s.uses r ++ forms) := by
  cases r with
  | assign name value => exact h
  | parse text =>
    rw [next, uses, parse]
    have hparsed := parsed s.memory s.settings text
    generalize parseWith _ _ text = result at hparsed ⊢
    cases hparsed with
    | refused hr =>
      rw [hr]
      exact h
    | recalled form known =>
      rw [form]
      exact h.keep (h.find?_eq_some known).2
    | read form unknown hread =>
      rw [form]
      exact h.keep (Memory.admitted_of_parsePlain hread)
    | unread form unknown hread =>
      rw [form]
      exact h

theorem recalls_after {s : Session} {forms : List String} (h : s.memory.Recalls forms)
    (rs : List Request) : (s.after rs).memory.Recalls (s.used rs ++ forms) := by
  induction rs generalizing s forms with
  | nil => exact h
  | cons r rs ih =>
    rw [used, List.append_assoc]
    exact ih (recalls_next h r)

theorem capacity_next (s : Session) (r : Request) :
    (s.next r).memory.capacity = s.memory.capacity := by
  cases r with
  | assign name value => rfl
  | parse text =>
    rw [next]
    have hparsed := parsed s.memory s.settings text
    generalize parseWith _ _ text = result at hparsed ⊢
    cases hparsed <;> rfl

theorem capacity_after (s : Session) (rs : List Request) :
    (s.after rs).memory.capacity = s.memory.capacity := by
  induction rs generalizing s with
  | nil => rfl
  | cons r rs ih => exact (ih (s.next r)).trans (capacity_next s r)

/-- What is answered now, next to what would be answered afresh. -/
inductive Answers (limits : Settings) (recent : List String) (text : List Char) :
    Attempt Expression → Attempt Expression → Prop
  | same {x : Attempt Expression}
      (h : ∀ t, plain limits text = .ok t → String.ofList t ∈ recent → ∃ e, x = .ok e) :
      Answers limits recent text x x
  | stale {t : List Char} {e : Expr} {r : Refusal} (form : plain limits text = .ok t)
      (mem : String.ofList t ∈ recent) (datum : datumOf t = .ok (.expr e))
      (exceeds : Exceeds limits r) :
      Answers limits recent text (.ok (Expression.describe text t e)) (.error (.refused r))

theorem answers_of_recalls {s : Session} {forms : List String} (h : s.memory.Recalls forms)
    (text : List Char) :
    Answers s.settings (forms.eraseDups.take s.memory.capacity) text (s.parse text)
      (Expression.parse s.settings text) := by
  rw [parse]
  have hparsed := parsed s.memory s.settings text
  generalize parseWith _ _ text = result at hparsed ⊢
  cases hparsed with
  | refused hr =>
    rw [parse_eq_refused hr]
    refine .same fun t form => ?_
    rw [hr] at form
    cases form
  | @recalled t e form known =>
    obtain ⟨hmem, hdatum, other, n, hother⟩ := h.find?_eq_some known
    rw [String.toList_ofList] at hdatum
    rw [parse_eq_parsePlain form, parsePlain, hdatum, ok_bind, acceptDatum, Datum.tree]
    -- It was admitted when it was read, which may have been under other limits.
    cases haccept : accept s.settings 0 0 (.ofExpr e) with
    | ok n => exact .same fun _ _ _ => ⟨_, rfl⟩
    | error r => exact .stale form hmem hdatum (exceeds_of_accept hother haccept)
  | read form unknown hread =>
    rw [parse_eq_parsePlain form, hread]
    exact .same fun _ _ _ => ⟨_, rfl⟩
  | @unread t f form unknown hread =>
    rw [parse_eq_parsePlain form, hread]
    refine .same fun t' form' hmem => ?_
    obtain rfl : t = t' := by simpa [form] using form'
    exact absurd hmem (h.find?_eq_none unknown)

/-- After any requests, a text is answered as it would be by a session that begins now, unless its
plain form is one of the latest read and is refused now for its nodes or its depth alone. -/
theorem answers_after (settings : Settings) (rs : List Request) (text : List Char) :
    Answers ((begun settings).after rs).settings
      (((begun settings).used rs).eraseDups.take settings.cacheSize.toNat) text
      (((begun settings).after rs).parse text)
      ((begun ((begun settings).after rs).settings).parse text) := by
  have hempty : (begun settings).memory.Recalls [] := Memory.recalls_empty _
  have hrecalls := recalls_after hempty rs
  rw [List.append_nil] at hrecalls
  have hanswers := answers_of_recalls hrecalls text
  rw [capacity_after] at hanswers
  rw [parse_begun]
  exact hanswers

/-- A sum of three nodes, and then a limit of two. -/
def limitLowered : Session :=
  (begun {}).after [.parse "x + 1".toList, .assign "MAX_EXPRESSION_NODES" (.int 2)]

theorem exists_answer_stale :
    passes (·.source == "x + 1") (limitLowered.parse "x + 1".toList) = true ∧
      failure? ((begun limitLowered.settings).parse "x + 1".toList) =
        some (.refused (.tooComplex 2)) :=
  ⟨by decide +kernel, by decide +kernel⟩

end Session

end Simultaneous
