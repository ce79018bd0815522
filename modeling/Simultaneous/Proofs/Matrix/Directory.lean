import Simultaneous.Matrix.Store
import Simultaneous.Proofs.Attempt

/-!
Names and the objects they refer to. What a name refers to changes only when it is bound, and what
is asked of an object does not depend on how it is kept.
-/

namespace Simultaneous.Matrix.Directory

variable {β γ : Type} {d : Directory β} {name : String} {n : Nat}

theorem find?_eq_some_iff {o : β} :
    d.find? name = some (n, o) ↔ d.number? name = some n ∧ d.objects[n]? = some o := by
  simp only [find?, Option.bind_eq_bind, Option.bind_eq_some_iff, Option.pure_def,
    Option.some.injEq, Prod.mk.injEq]
  constructor
  · rintro ⟨k, hk, p, hp, rfl, rfl⟩
    exact ⟨hk, hp⟩
  · rintro ⟨hn, ho⟩
    exact ⟨n, hn, o, ho, rfl, rfl⟩

section

variable (d) (f : β → γ)

theorem find?_map (name : String) :
    (d.map f).find? name = (d.find? name).map (Prod.map id f) := by
  have hnumber : (d.map f).number? name = d.number? name := rfl
  have hobjects : (d.map f).objects = d.objects.map f := rfl
  rw [find?, find?, hnumber, hobjects]
  cases d.number? name with
  | none => rfl
  | some n =>
    simp only [Option.bind_eq_bind, Option.bind_some, List.getElem?_map]
    cases d.objects[n]? <;> rfl

theorem operand_map (a : Operand) :
    (d.map f).operand a = (d.operand a).map (Option.map (Prod.map id f)) := by
  cases a with
  | none => rfl
  | some name =>
    simp only [operand, find?_map]
    cases d.find? name <;> rfl

theorem demand_map (ability : String) (a : Operand) :
    (d.map f).demand ability a = (d.demand ability a).map (Prod.map id f) := by
  rw [demand, demand, operand_map]
  cases d.operand a with
  | error e => rfl
  | ok o => cases o <;> rfl

theorem kindOf_map (a : Operand) : (d.map f).kindOf a = d.kindOf a := by
  rw [kindOf, kindOf, operand_map]
  cases d.operand a with
  | error e => rfl
  | ok o => cases o <;> rfl

theorem map_bind (target : Option String) (n : Nat) :
    (d.bind target n).map f = (d.map f).bind target n := by
  cases target <;> rfl

theorem map_keep (target : Option String) (o : β) :
    (d.keep target o).map f = (d.map f).keep target (f o) := by
  cases target with
  | none => rfl
  | some name => simp [keep, bind, map]

theorem map_replace (n : Nat) (o : β) :
    (d.replace n o).map f = (d.map f).replace n (f o) := by
  simp [replace, map]

end

/-- What an operand is that exists: a name that refers to an object. -/
theorem demand_eq_ok_iff {ability : String} {a : Operand} {o : β} :
    d.demand ability a = .ok (n, o) ↔ ∃ name, a = some name ∧ d.find? name = some (n, o) := by
  cases a with
  | none => simp [demand, operand, Attempt.ok_bind]
  | some name =>
    rw [demand, operand]
    cases hf : d.find? name with
    | none => simp [Attempt.error_bind, hf]
    | some p => simp [Attempt.ok_bind, hf, pure, Except.pure]

theorem number?_bind_self (d : Directory β) (name : String) (n : Nat) :
    (d.bind (some name) n).number? name = some n := by
  simp [number?, bind]

theorem number?_bind_of_ne {target : Option String} (h : target ≠ some name) (n : Nat) :
    (d.bind target n).number? name = d.number? name := by
  cases target with
  | none => rfl
  | some t =>
    have hne : t ≠ name := fun heq => h (congrArg some heq)
    have hfind : (d.names.filter (·.1 != t)).find? (·.1 == name) =
        d.names.find? (·.1 == name) := by
      rw [List.find?_filter]
      congr 1
      funext p
      by_cases hp : p.1 = name
      · simp [hp, Ne.symm hne]
      · simp [hp]
    rw [number?, number?, bind, List.find?_cons_of_neg (by simpa using hne), hfind]

theorem number?_keep_self (d : Directory β) (name : String) (o : β) :
    (d.keep (some name) o).number? name = some d.objects.length :=
  number?_bind_self _ name _

theorem number?_keep_of_ne {target : Option String} (h : target ≠ some name) (o : β) :
    (d.keep target o).number? name = d.number? name := by
  cases target with
  | none => rfl
  | some t => exact number?_bind_of_ne h _

theorem objects_bind (d : Directory β) (target : Option String) (n : Nat) :
    (d.bind target n).objects = d.objects := by
  cases target <;> rfl

theorem getElem?_keep {o : β} (h : d.objects[n]? = some o) (target : Option String) (p : β) :
    (d.keep target p).objects[n]? = some o := by
  cases target with
  | none => exact h
  | some t =>
    obtain ⟨hn, -⟩ := List.getElem?_eq_some_iff.mp h
    exact (List.getElem?_append_left hn).trans h

theorem mem_objects_keep {target : Option String} {o p : β} (h : p ∈ (d.keep target o).objects) :
    p ∈ d.objects ∨ p = o := by
  cases target with
  | none => exact .inl h
  | some t => simpa [keep, bind] using h

/-- Every name refers to an object. -/
def IsClosed (d : Directory β) : Prop := ∀ name n, d.number? name = some n → n < d.objects.length

namespace IsClosed

variable (h : d.IsClosed)

include h

theorem bind (target : Option String) (hn : n < d.objects.length) :
    (d.bind target n).IsClosed := by
  intro name k hk
  rw [objects_bind]
  by_cases heq : target = some name
  · subst heq
    rw [number?_bind_self] at hk
    cases hk
    exact hn
  · rw [number?_bind_of_ne heq] at hk
    exact h name k hk

theorem keep (target : Option String) (o : β) : (d.keep target o).IsClosed := by
  cases target with
  | none => exact h
  | some t =>
    have hlt : d.objects.length < (d.objects ++ [o]).length := by simp
    have hmore : IsClosed { d with objects := d.objects ++ [o] } := fun name k hk =>
      Nat.lt_trans (h name k hk) hlt
    exact hmore.bind _ hlt

theorem replace (k : Nat) (o : β) : (d.replace k o).IsClosed := by
  intro name n hn
  rw [Directory.replace, List.length_set]
  exact h name n hn

end IsClosed

end Simultaneous.Matrix.Directory
