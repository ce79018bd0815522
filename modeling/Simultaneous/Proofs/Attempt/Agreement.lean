import Simultaneous.Proofs.Attempt

/-!
Attempts that agree: both fail, for reasons that may be different, or both have results, which are
related. Sequences of steps agree if the steps do, in their order or in any other.
-/

namespace Simultaneous.Attempt

variable {ε α β γ δ : Type}

/-- Attempts fail for related reasons, or have results that are related. -/
inductive Agree (R : α → β → Prop) (E : ε → ε → Prop) : Except ε α → Except ε β → Prop
  | ok {a : α} {b : β} (h : R a b) : Agree R E (.ok a) (.ok b)
  | error {e e' : ε} (h : E e e') : Agree R E (.error e) (.error e')

namespace Agree

variable {R : α → β → Prop} {E : ε → ε → Prop} {x : Except ε α} {y : Except ε β}

theorem of_eq {E : ε → ε → Prop} (hE : ∀ e, E e e) {x y : Except ε α} (h : y = x) :
    Agree Eq E x y := by
  subst h
  cases y with
  | ok a => exact .ok rfl
  | error e => exact .error (hE e)

theorem imp {R' : α → β → Prop} {E' : ε → ε → Prop} (h : Agree R E x y)
    (hR : ∀ a b, R a b → R' a b) (hE : ∀ e e', E e e' → E' e e') : Agree R' E' x y := by
  cases h with
  | ok h => exact .ok (hR _ _ h)
  | error h => exact .error (hE _ _ h)

/-- The results have what each of the attempts ensures of its own. -/
theorem and_ensures {P : α → Prop} {Q : β → Prop} {F G : ε → Prop} (h : Agree R E x y)
    (hx : Ensures P F x) (hy : Ensures Q G y) : Agree (fun a b => P a ∧ Q b ∧ R a b) E x y := by
  cases h with
  | ok h => exact .ok ⟨hx.of_eq_ok rfl, hy.of_eq_ok rfl, h⟩
  | error h => exact .error h

theorem bind {S : γ → δ → Prop} {f : α → Except ε γ} {g : β → Except ε δ} (h : Agree R E x y)
    (hfg : ∀ a b, R a b → Agree S E (f a) (g b)) : Agree S E (x >>= f) (y >>= g) := by
  cases h with
  | ok h => exact hfg _ _ h
  | error h => exact .error h

/-- Sequences of steps that agree place by place. -/
theorem mapM {R : Nat → γ → δ → Prop} {f : α → Except ε γ} {g : β → Except ε δ} {xs : List α}
    {ys : List β} (hlength : xs.length = ys.length)
    (h : ∀ i (hx : i < xs.length) (hy : i < ys.length), Agree (R i) E (f xs[i]) (g ys[i])) :
    Agree (fun as bs => as.length = xs.length ∧ bs.length = xs.length ∧
      ∀ i (ha : i < as.length) (hb : i < bs.length), R i as[i] bs[i]) E (xs.mapM f)
        (ys.mapM g) := by
  induction xs generalizing ys R with
  | nil =>
    obtain rfl := List.eq_nil_of_length_eq_zero hlength.symm
    exact .ok ⟨rfl, rfl, fun i ha => absurd ha (Nat.not_lt_zero i)⟩
  | cons x xs ih =>
    obtain _ | ⟨y, ys⟩ := ys
    · cases hlength
    rw [List.mapM_cons, List.mapM_cons]
    apply (h 0 (Nat.succ_pos _) (Nat.succ_pos _)).bind
    intro a b hab
    have hrest := ih (R := fun i => R (i + 1)) (Nat.succ.inj hlength) fun i hx hy =>
      h (i + 1) (Nat.succ_lt_succ hx) (Nat.succ_lt_succ hy)
    apply hrest.bind
    rintro as bs ⟨has, hbs, hall⟩
    refine .ok ⟨congrArg (· + 1) has, congrArg (· + 1) hbs, fun i ha hb => ?_⟩
    cases i with
    | zero => exact hab
    | succ i => exact hall i (Nat.lt_of_succ_lt_succ ha) (Nat.lt_of_succ_lt_succ hb)

end Agree

theorem mapM_eq_map {f : α → Except ε β} {g : α → β} {xs : List α}
    (h : ∀ x ∈ xs, f x = .ok (g x)) : xs.mapM f = .ok (xs.map g) := by
  simpa using mapM_map_eq_ok (g := id) h

theorem exists_eq_map [Inhabited β] {f : α → Except ε β} {xs : List α} {ys : List β}
    (h : xs.mapM f = .ok ys) : ∃ g : α → β, (∀ x ∈ xs, f x = .ok (g x)) ∧ ys = xs.map g := by
  have hg : ∀ x ∈ xs, f x = .ok ((f x).toOption.getD default) := by
    intro x hx
    obtain ⟨y, -, hy⟩ := exists_mem_of_mem_mapM h hx
    rw [hy]
    rfl
  refine ⟨_, hg, ?_⟩
  rw [mapM_eq_map hg] at h
  exact (Except.ok.inj h).symm

/-- Steps that do the same at every place within a list. -/
theorem mapM_zipIdx {f : α × Nat → Except ε β} {g : α → Except ε β} {xs : List α} {k : Nat}
    (h : ∀ x i, i < k + xs.length → f (x, i) = g x) : (xs.zipIdx k).mapM f = xs.mapM g := by
  induction xs generalizing k with
  | nil => rfl
  | cons x xs ih =>
    have hrest : ∀ y i, i < k + 1 + xs.length → f (y, i) = g y := fun y i hi =>
      h y i (by rw [List.length_cons]; omega)
    rw [List.zipIdx_cons, List.mapM_cons, List.mapM_cons, h x k (by simp), ih hrest]

/-- The same steps in another order: they succeed with the same results, or some of them fails. -/
theorem mapM_perm [Inhabited β] {E : ε → ε → Prop} {f : α → Except ε β} {xs ys : List α}
    (h : xs.Perm ys) (hE : ∀ x ∈ xs, ∀ y ∈ xs, ∀ e e', f x = .error e → f y = .error e' → E e e') :
    Agree (fun as bs => ∃ g : α → β, as = xs.map g ∧ bs = ys.map g) E (xs.mapM f)
      (ys.mapM f) := by
  rcases hx : xs.mapM f with e | as
  · rcases hy : ys.mapM f with e' | bs
    · obtain ⟨before, x, after, rfl, -, hxe⟩ := mapM_eq_error.mp hx
      obtain ⟨before', y, after', rfl, -, hye⟩ := mapM_eq_error.mp hy
      exact .error (hE x (by simp) y (h.mem_iff.mpr (by simp)) _ _ hxe hye)
    · obtain ⟨g, hg, -⟩ := exists_eq_map hy
      rw [mapM_eq_map fun x hmem => hg x (h.mem_iff.mp hmem)] at hx
      cases hx
  · obtain ⟨g, hg, rfl⟩ := exists_eq_map hx
    rw [mapM_eq_map fun y hmem => hg y (h.mem_iff.mpr hmem)]
    exact .ok ⟨g, rfl, rfl⟩

end Simultaneous.Attempt
