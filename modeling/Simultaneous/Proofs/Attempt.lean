import Mathlib.Data.List.Forall2

/-!
Results that may fail, taken apart: what a sequence of steps came to says what each step came to;
and put together: what each step ensures of its result and of its failure, the sequence ensures.
-/

namespace Simultaneous.Attempt

variable {ε α β : Type}

theorem ok_bind (a : α) (f : α → Except ε β) : Except.ok a >>= f = f a := rfl

theorem error_bind (e : ε) (f : α → Except ε β) : Except.error e >>= f = .error e := rfl

theorem bind_eq_ok {x : Except ε α} {f : α → Except ε β} {b : β} :
    x >>= f = .ok b ↔ ∃ a, x = .ok a ∧ f a = .ok b := by
  cases x <;> simp [bind, Except.bind]

theorem bind_eq_error {x : Except ε α} {f : α → Except ε β} {e : ε} :
    x >>= f = .error e ↔ x = .error e ∨ ∃ a, x = .ok a ∧ f a = .error e := by
  cases x <;> simp [bind, Except.bind]

/-- Attempts with one image have failed with the same, or have results with one image. -/
theorem cases_of_map_eq {γ : Type} {x : Except ε α} {y : Except ε β} {f : α → γ} {g : β → γ}
    (h : x.map f = y.map g) :
    (∃ e, x = .error e ∧ y = .error e) ∨ ∃ a b, x = .ok a ∧ y = .ok b ∧ f a = g b := by
  cases x with
  | error e =>
    cases y with
    | error e' => cases h; exact .inl ⟨e, rfl, rfl⟩
    | ok b => cases h
  | ok a =>
    cases y with
    | error e => cases h
    | ok b => exact .inr ⟨a, b, rfl, rfl, Except.ok.inj h⟩

/-- A result passes a test; a failure passes none. -/
def passes (p : α → Bool) : Except ε α → Bool
  | .ok a => p a
  | .error _ => false

theorem exists_of_passes {p : α → Bool} {x : Except ε α} (h : passes p x = true) :
    ∃ a, x = .ok a ∧ p a = true := by
  cases x with
  | ok a => exact ⟨a, rfl, h⟩
  | error e => cases h

/-- What an attempt failed with. -/
def failure? : Except ε α → Option ε
  | .ok _ => none
  | .error e => some e

theorem eq_error_of_failure? {x : Except ε α} {e : ε} (h : failure? x = some e) :
    x = .error e := by
  cases x with
  | ok a => cases h
  | error e' => rw [Option.some.inj h]

theorem failure?_cons (a : α) (xs : Except ε (List α)) :
    failure? (do return a :: (← xs)) = failure? xs := by
  cases xs <;> rfl

theorem cons_eq_ok {a : α} {xs : Except ε (List α)} {ys : List α} :
    (do return a :: (← xs)) = Except.ok ys ↔ ∃ rest, xs = .ok rest ∧ ys = a :: rest := by
  cases xs <;> simp [bind, Except.bind, pure, Except.pure, eq_comm]

section

variable {f : α → Except ε β} {xs : List α} {ys : List β} (h : xs.mapM f = .ok ys)

include h

theorem mapM_eq_ok : List.Forall₂ (fun x y => f x = .ok y) xs ys := by
  induction xs generalizing ys with
  | nil => cases h; exact .nil
  | cons x xs ih =>
    rw [List.mapM_cons] at h
    obtain ⟨y, hy, h⟩ := bind_eq_ok.mp h
    obtain ⟨ys, hys, h⟩ := bind_eq_ok.mp h
    cases h
    exact .cons hy (ih hys)

theorem exists_of_mem_mapM {y : β} (hy : y ∈ ys) : ∃ x ∈ xs, f x = .ok y := by
  obtain ⟨i, hi, rfl⟩ := List.mem_iff_getElem.mp hy
  obtain ⟨hl, hget⟩ := List.forall₂_iff_get.mp (mapM_eq_ok h)
  exact ⟨xs[i], List.getElem_mem (hl ▸ hi), hget i (hl ▸ hi) hi⟩

theorem exists_mem_of_mem_mapM {x : α} (hx : x ∈ xs) : ∃ y ∈ ys, f x = .ok y := by
  obtain ⟨i, hi, rfl⟩ := List.mem_iff_getElem.mp hx
  obtain ⟨hl, hget⟩ := List.forall₂_iff_get.mp (mapM_eq_ok h)
  exact ⟨ys[i], List.getElem_mem (hl ▸ hi), hget i hi (hl ▸ hi)⟩

end

theorem mapM_eq_map_range {f : α → Except ε β} {xs : List α} {g : Nat → β}
    (h : ∀ i (hi : i < xs.length), f xs[i] = .ok (g i)) :
    xs.mapM f = .ok ((List.range xs.length).map g) := by
  induction xs generalizing g with
  | nil => rfl
  | cons x xs ih =>
    have hx : f x = .ok (g 0) := h 0 (Nat.succ_pos _)
    have hxs := ih (g := fun i => g (i + 1)) fun i hi => h (i + 1) (Nat.succ_lt_succ hi)
    rw [List.mapM_cons, hx, ok_bind, hxs, List.length_cons, List.range_succ_eq_map, List.map_cons,
      List.map_map]
    rfl

theorem mapM_map_eq_ok {γ : Type} {f : β → Except ε γ} {g : α → β} {r : α → γ} {xs : List α}
    (h : ∀ x ∈ xs, f (g x) = .ok (r x)) : (xs.map g).mapM f = .ok (xs.map r) := by
  induction xs with
  | nil => rfl
  | cons x xs ih =>
    rw [List.map_cons, List.mapM_cons, h x List.mem_cons_self,
      ih fun a ha => h a (List.mem_cons_of_mem x ha)]
    rfl

theorem map_eq_error {x : Except ε α} {g : α → β} {e : ε} :
    (do let a ← x; return g a) = Except.error e ↔ x = .error e := by
  cases x <;> simp [bind, Except.bind, pure, Except.pure]

/-- A sequence of steps fails with the first step that fails. -/
theorem mapM_eq_error {f : α → Except ε β} {xs : List α} {e : ε} :
    xs.mapM f = .error e ↔ ∃ before a after, xs = before ++ a :: after ∧
      (∀ b ∈ before, ∃ y, f b = .ok y) ∧ f a = .error e := by
  induction xs with
  | nil =>
    constructor
    · intro h
      cases h
    · rintro ⟨before, a, after, h, -⟩
      simp at h
  | cons x xs ih =>
    rw [List.mapM_cons, bind_eq_error]
    constructor
    · rintro (hx | ⟨y, hy, h⟩)
      · exact ⟨[], x, xs, rfl, by simp, hx⟩
      · obtain ⟨before, a, after, rfl, hbefore, ha⟩ := ih.mp (map_eq_error.mp h)
        exact ⟨x :: before, a, after, rfl, List.forall_mem_cons.mpr ⟨⟨y, hy⟩, hbefore⟩, ha⟩
    · rintro ⟨before, a, after, h, hbefore, ha⟩
      obtain ⟨rfl, h⟩ | ⟨rest, rfl, rfl⟩ := List.cons_eq_append_iff.mp h
      · obtain ⟨rfl, rfl⟩ := List.cons_eq_cons.mp h
        exact .inl ha
      · obtain ⟨⟨y, hy⟩, hrest⟩ := List.forall_mem_cons.mp hbefore
        exact .inr ⟨y, hy, map_eq_error.mpr (ih.mpr ⟨rest, a, after, rfl, hrest, ha⟩)⟩

/-- Steps in groups fail as they do one after the other. -/
theorem mapM_mapM_eq_error {f : α → Except ε β} {xss : List (List α)} {e : ε} :
    xss.mapM (fun xs => xs.mapM f) = .error e ↔ xss.flatten.mapM f = .error e := by
  induction xss with
  | nil => constructor <;> (intro h; cases h)
  | cons xs xss ih =>
    rw [List.mapM_cons, List.flatten_cons, List.mapM_append, bind_eq_error, bind_eq_error]
    simp only [map_eq_error, ih]

/-- A result has one property, a failure another. -/
inductive Ensures (P : α → Prop) (E : ε → Prop) : Except ε α → Prop
  | ok {a : α} (h : P a) : Ensures P E (.ok a)
  | error {e : ε} (h : E e) : Ensures P E (.error e)

namespace Ensures

variable {P : α → Prop} {Q : β → Prop} {E : ε → Prop} {x : Except ε α}

theorem of_eq_ok (h : Ensures P E x) {a : α} (hx : x = .ok a) : P a := by
  cases h with
  | ok h => cases hx; exact h
  | error h => cases hx

theorem of_eq_error (h : Ensures P E x) {e : ε} (hx : x = .error e) : E e := by
  cases h with
  | ok h => cases hx
  | error h => cases hx; exact h

theorem imp {P' : α → Prop} {E' : ε → Prop} (h : Ensures P E x) (hp : ∀ a, P a → P' a)
    (he : ∀ e, E e → E' e) : Ensures P' E' x := by
  cases h with
  | ok h => exact .ok (hp _ h)
  | error h => exact .error (he _ h)

theorem bind {f : α → Except ε β} (h : Ensures P E x) (hf : ∀ a, P a → Ensures Q E (f a)) :
    Ensures Q E (x >>= f) := by
  cases h with
  | ok h => exact hf _ h
  | error h => exact .error h

/-- What the results at all elements have in common, and how many there are. -/
theorem mapM {f : α → Except ε β} {xs : List α} (h : ∀ a ∈ xs, Ensures Q E (f a)) :
    Ensures (fun ys => ys.length = xs.length ∧ ∀ b ∈ ys, Q b) E (xs.mapM f) := by
  induction xs with
  | nil => exact .ok ⟨rfl, by simp⟩
  | cons x xs ih =>
    rw [List.mapM_cons]
    apply (h x (by simp)).bind
    intro b hb
    apply (ih fun a ha => h a (by simp [ha])).bind
    rintro ys ⟨hlength, hys⟩
    refine .ok ⟨congrArg (· + 1) hlength, fun c hc => ?_⟩
    obtain rfl | hc := List.mem_cons.mp hc
    · exact hb
    · exact hys c hc

/-- What every step preserves holds at the end. -/
theorem foldlM {f : β → α → Except ε β} {xs : List α}
    (h : ∀ b, ∀ a ∈ xs, Q b → Ensures Q E (f b a)) {b : β} (hb : Q b) :
    Ensures Q E (xs.foldlM f b) := by
  induction xs generalizing b with
  | nil => exact .ok hb
  | cons x xs ih =>
    rw [List.foldlM_cons]
    exact (h b x (by simp) hb).bind fun b hb => ih (fun b a ha => h b a (by simp [ha])) hb

end Ensures

/-- Attempts fail alike, or have results that are related. -/
inductive Alike (R : α → β → Prop) : Except ε α → Except ε β → Prop
  | ok {a : α} {b : β} (h : R a b) : Alike R (.ok a) (.ok b)
  | error (e : ε) : Alike R (.error e) (.error e)

namespace Alike

variable {γ δ : Type} {R : α → β → Prop} {S : γ → δ → Prop} {x : Except ε α} {y : Except ε β}

theorem refl {R : α → α → Prop} (hR : ∀ a, R a a) (x : Except ε α) : Alike R x x := by
  cases x with
  | ok a => exact .ok (hR a)
  | error e => exact .error e

/-- What the one ensures of its result, it ensures of the other's relation to it. -/
theorem and_ensures {P : α → Prop} {E : ε → Prop} (h : Alike R x y) (hx : Ensures P E x) :
    Alike (fun a b => P a ∧ R a b) x y := by
  cases h with
  | ok h =>
    cases hx with
    | ok hx => exact .ok ⟨hx, h⟩
  | error e => exact .error e

theorem imp {R' : α → β → Prop} (h : Alike R x y) (hR : ∀ a b, R a b → R' a b) :
    Alike R' x y := by
  cases h with
  | ok h => exact .ok (hR _ _ h)
  | error e => exact .error e

theorem bind {f : α → Except ε γ} {g : β → Except ε δ} (h : Alike R x y)
    (hfg : ∀ a b, R a b → Alike S (f a) (g b)) : Alike S (x >>= f) (y >>= g) := by
  cases h with
  | ok h => exact hfg _ _ h
  | error e => exact .error e

theorem mapM {f : γ → Except ε α} {g : γ → Except ε β} {xs : List γ}
    (h : ∀ c ∈ xs, Alike R (f c) (g c)) :
    Alike (List.Forall₂ R) (xs.mapM f) (xs.mapM g) := by
  induction xs with
  | nil => exact .ok .nil
  | cons c xs ih =>
    rw [List.mapM_cons, List.mapM_cons]
    apply (h c List.mem_cons_self).bind
    intro a b hab
    apply (ih fun d hd => h d (List.mem_cons_of_mem c hd)).bind
    intro as bs hrest
    exact .ok (.cons hab hrest)

end Alike

end Simultaneous.Attempt
