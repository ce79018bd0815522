import Mathlib.Data.List.Basic

/-!
Texts in which blocks have been replaced. What holds of every replaced block and its replacement
holds of the whole texts.
-/

namespace Simultaneous.Text

/-- The second text is the first one with some blocks replaced, as `block` allows. -/
inductive Respells (block : List Char → List Char → Prop) : List Char → List Char → Prop
  | nil : Respells block [] []
  | keep (c : Char) {s t : List Char} (rest : Respells block s t) :
      Respells block (c :: s) (c :: t)
  | replace {u v s t : List Char} (replaced : block u v) (rest : Respells block s t) :
      Respells block (u ++ s) (v ++ t)

namespace Respells

variable {block : List Char → List Char → Prop} {s t : List Char}

theorem keepAll (w : List Char) (h : Respells block s t) :
    Respells block (w ++ s) (w ++ t) := by
  induction w with
  | nil => exact h
  | cons c w ih => exact .keep c ih

theorem flatMap {f : Char → List Char} (h : ∀ c, f c = [c] ∨ block [c] (f c)) (s : List Char) :
    Respells block s (s.flatMap f) := by
  induction s with
  | nil => exact .nil
  | cons c s ih =>
    rw [List.flatMap_cons]
    obtain hkeep | hblock := h c
    · rw [hkeep]
      exact .keep c ih
    · exact .replace hblock ih

/-- Characters of a kind that every block keeps are the same in both texts. -/
theorem filter_eq {p : Char → Bool} (hblock : ∀ u v, block u v → u.filter p = v.filter p)
    (h : Respells block s t) : s.filter p = t.filter p := by
  induction h with
  | nil => rfl
  | keep c rest ih => rw [List.filter_cons, List.filter_cons, ih]
  | replace replaced rest ih => rw [List.filter_append, List.filter_append, hblock _ _ replaced, ih]

theorem symm (h : Respells block s t) : Respells (fun v u => block u v) t s := by
  induction h with
  | nil => exact .nil
  | keep c rest ih => exact .keep c ih
  | replace replaced rest ih => exact .replace replaced ih

/-- A character-wise rewriting of both texts rewrites the blocks. -/
theorem flatMap_both {block' : List Char → List Char → Prop} {f : Char → List Char}
    (hblock : ∀ u v, block u v → block' (u.flatMap f) (v.flatMap f)) (h : Respells block s t) :
    Respells block' (s.flatMap f) (t.flatMap f) := by
  induction h with
  | nil => exact .nil
  | keep c rest ih =>
    rw [List.flatMap_cons, List.flatMap_cons]
    exact ih.keepAll (f c)
  | replace replaced rest ih =>
    rw [List.flatMap_append, List.flatMap_append]
    exact .replace (hblock _ _ replaced) ih

end Respells

theorem infix_append_iff {p u s : List Char} (hne : p ≠ []) (hu : ∀ c ∈ u, c ∉ p) :
    p <:+: u ++ s ↔ p <:+: s := by
  induction u with
  | nil => rfl
  | cons c u ih =>
    rw [List.cons_append, List.infix_cons_iff, ih fun a ha => hu a (List.mem_cons_of_mem c ha)]
    refine or_iff_right fun hpre => ?_
    obtain ⟨d, p, rfl⟩ := List.exists_cons_of_ne_nil hne
    exact hu c List.mem_cons_self ((List.cons_prefix_cons.mp hpre).1 ▸ List.mem_cons_self)

theorem infix_append_right_iff {p u s : List Char} (hne : p ≠ []) (hu : ∀ c ∈ u, c ∉ p) :
    p <:+: s ++ u ↔ p <:+: s := by
  rw [← List.reverse_infix, List.reverse_append, infix_append_iff (by simpa) (by simpa),
    List.reverse_infix]

/-- A block of characters that do not stand in the word. -/
structure Avoids (p u : List Char) : Prop where
  nonempty : u ≠ []
  not_mem : ∀ c ∈ u, c ∉ p

theorem Avoids.of_subset {p q u : List Char} (h : Avoids p u) (hq : q ⊆ p) : Avoids q u :=
  ⟨h.nonempty, fun a ha hp => h.not_mem a ha (hq hp)⟩

namespace Respells

variable {block : List Char → List Char → Prop} {s t : List Char}

/-- A word that no block touches stays where it is: at the head, at the end or inside. -/
theorem exists_split (h : Respells block s t) {p w z : List Char}
    (havoids : ∀ u v, block u v → Avoids p u) (hs : s = w ++ (p ++ z)) :
    ∃ w' z', t = w' ++ (p ++ z') ∧ (w = [] → w' = []) ∧ (z = [] → z' = []) := by
  induction h generalizing p w with
  | nil =>
    obtain ⟨rfl, hpz⟩ := List.append_eq_nil_iff.mp hs.symm
    obtain ⟨rfl, rfl⟩ := List.append_eq_nil_iff.mp hpz
    exact ⟨[], [], rfl, id, id⟩
  | @keep c s t rest ih =>
    cases w with
    | cons a w =>
      obtain ⟨rfl, hrest⟩ := List.cons_eq_cons.mp hs
      obtain ⟨w', z', rfl, -, hz⟩ := ih havoids hrest
      exact ⟨c :: w', z', rfl, nofun, hz⟩
    | nil =>
      cases p with
      | nil =>
        refine ⟨[], c :: t, rfl, id, fun hz => ?_⟩
        rw [hz] at hs
        cases hs
      | cons a p =>
        obtain ⟨rfl, hrest⟩ := List.cons_eq_cons.mp hs
        have htail : ∀ u v, block u v → Avoids p u := fun u v huv =>
          (havoids u v huv).of_subset (List.subset_cons_self _ _)
        obtain ⟨w', z', rfl, hw, hz⟩ := ih htail (hrest.trans (List.nil_append _).symm)
        rw [hw rfl]
        exact ⟨[], z', rfl, id, hz⟩
  | @replace u v s t replaced rest ih =>
    have hu := havoids u v replaced
    -- The word begins behind the block, or it would have a character of it.
    obtain ⟨a, rfl, hpz⟩ | ⟨a, rfl, hpz⟩ := List.append_eq_append_iff.mp hs
    · obtain ⟨w', z', rfl, -, hz⟩ := ih havoids hpz
      exact ⟨v ++ w', z', (List.append_assoc _ _ _).symm,
        fun h => absurd (List.append_eq_nil_iff.mp h).1 hu.nonempty, hz⟩
    · cases a with
      | nil =>
        rw [List.append_nil] at hu
        obtain ⟨w', z', rfl, hw, hz⟩ :=
          ih havoids (p := p) (w := []) (hpz.symm.trans (List.nil_append _).symm)
        rw [hw rfl]
        exact ⟨v, z', rfl, fun h => absurd h hu.nonempty, hz⟩
      | cons b a =>
        cases p with
        | nil =>
          refine ⟨[], v ++ t, rfl, fun _ => rfl, fun hz => ?_⟩
          rw [hz] at hpz
          cases hpz
        | cons d p =>
          obtain ⟨rfl, -⟩ := List.cons_eq_cons.mp hpz
          exact absurd List.mem_cons_self (hu.not_mem d (by simp))

theorem infix_of_avoids (h : Respells block s t) {p : List Char}
    (havoids : ∀ u v, block u v → Avoids p u) (hp : p <:+: s) : p <:+: t := by
  obtain ⟨w, z, rfl⟩ := hp
  obtain ⟨w', z', rfl, -⟩ := h.exists_split havoids (List.append_assoc w p z)
  exact ⟨w', z', List.append_assoc _ _ _⟩

theorem suffix_of_avoids (h : Respells block s t) {p : List Char}
    (havoids : ∀ u v, block u v → Avoids p u) (hp : p <:+ s) : p <:+ t := by
  obtain ⟨w, rfl⟩ := hp
  obtain ⟨w', z', rfl, -, hz⟩ := h.exists_split havoids (congrArg (w ++ ·) (List.append_nil p).symm)
  rw [hz rfl, List.append_nil]
  exact List.suffix_append w' p

theorem infix_iff (h : Respells block s t) {p : List Char}
    (havoids : ∀ u v, block u v → Avoids p u ∧ Avoids p v) : p <:+: s ↔ p <:+: t :=
  ⟨h.infix_of_avoids fun u v huv => (havoids u v huv).1,
    h.symm.infix_of_avoids fun v u huv => (havoids u v huv).2⟩

end Respells

end Simultaneous.Text
