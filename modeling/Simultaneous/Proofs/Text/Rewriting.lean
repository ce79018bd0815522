import Mathlib.Data.List.Basic
import Simultaneous.Text.Character

/-!
Replacing blocks of a text from left to right, without overlap. A rule says which block at a place
is replaced and by what; it may look at the text behind the block, and at whether a word ends before
it.
-/

namespace Simultaneous.Text

/-- Whether a word ends where the text ends; `before` says so of the place where it begins. -/
def endsInWord (before : Bool) (s : List Char) : Bool := s.foldl (fun _ c => isWord c) before

/-- The text begins with such a character. -/
def Begins (p : Char → Bool) (s : List Char) : Prop := ∃ c ∈ s.head?, p c = true

/-- Whether a word ends before a block, the block, its replacement, and the text behind it. -/
abbrev Rule := Bool → List Char → List Char → List Char → Prop

/-- The text begins with a block that the rule replaces. -/
def Applies (rule : Rule) (before : Bool) (s : List Char) : Prop :=
  ∃ u v r, s = u ++ r ∧ rule before u v r

/-- No place of the text begins a block that the rule replaces. -/
def Nowhere (rule : Rule) (before : Bool) (s : List Char) : Prop :=
  ∀ x y, s = x ++ y → ¬ Applies rule (endsInWord before x) y

/-- The second text is the first one with the blocks replaced that a scan from the left comes
upon. -/
inductive Rewrites (rule : Rule) : Bool → List Char → List Char → Prop
  | nil {before : Bool} : Rewrites rule before [] []
  | replace {before : Bool} {u v r o : List Char} (h : rule before u v r)
      (rest : Rewrites rule (endsInWord before u) r o) : Rewrites rule before (u ++ r) (v ++ o)
  | keep {before : Bool} {c : Char} {s o : List Char} (h : ¬ Applies rule before (c :: s))
      (rest : Rewrites rule (isWord c) s o) : Rewrites rule before (c :: s) (c :: o)

/-- Every block has a character. -/
def Consumes (rule : Rule) : Prop := ∀ ⦃before u v r⦄, rule before u v r → u ≠ []

/-- A word ends behind the replacement just when one ends behind the block. -/
def KeepsWords (rule : Rule) : Prop :=
  ∀ ⦃before u v r⦄, rule before u v r → endsInWord before v = endsInWord before u

/-- What the rule does before the character does not depend on what follows it. -/
def Cuts (rule : Rule) (c : Char) : Prop :=
  ∀ ⦃before u v r x y⦄, rule before u v r → u ++ r = x ++ c :: y →
    ∃ r', x ++ [c] = u ++ r' ∧ ∀ y', rule before u v (r' ++ y')

/-- What the pass makes of a text is the text rewritten by the rule. -/
structure Follows (pass : Bool → List Char → List Char) (rule : Rule) : Prop where
  consumes : Consumes rule
  eq_of_rewrites : ∀ {before s o}, Rewrites rule before s o → pass before s = o

section

variable {before : Bool} {c : Char} {s t x y o : List Char}

theorem begins_nil {p : Char → Bool} : ¬ Begins p [] := nofun

@[simp] theorem begins_cons {p : Char → Bool} : Begins p (c :: s) ↔ p c = true := by simp [Begins]

theorem begins_append {p : Char → Bool} (hs : s ≠ []) : Begins p (s ++ t) ↔ Begins p s := by
  obtain ⟨c, s, rfl⟩ := List.exists_cons_of_ne_nil hs
  rw [List.cons_append, begins_cons, begins_cons]

@[simp] theorem endsInWord_nil : endsInWord before [] = before := rfl

@[simp] theorem endsInWord_cons : endsInWord before (c :: s) = endsInWord (isWord c) s := rfl

@[simp] theorem endsInWord_append :
    endsInWord before (s ++ t) = endsInWord (endsInWord before s) t := List.foldl_append

theorem foldl_last_iff (p : Char → Bool) (s : List Char) :
    s.foldl (fun _ c => p c) false = true ↔ ∃ c ∈ s.getLast?, p c = true := by
  obtain rfl | ⟨s, a, rfl⟩ := List.eq_nil_or_concat s <;> simp

end

variable {rule : Rule} {before : Bool} {c : Char} {s x y o o' : List Char}

/-- A character that the first part does not have stands in the second one. -/
theorem exists_of_append_cons {u r : List Char} (h : u ++ r = x ++ c :: y) (hc : c ∉ u) :
    ∃ x', x = u ++ x' ∧ r = x' ++ c :: y := by
  obtain ⟨x', rfl, hr⟩ | ⟨z, rfl, hz⟩ := List.append_eq_append_iff.mp h
  · exact ⟨x', rfl, hr⟩
  · cases z with
    | nil => exact ⟨[], by simp, by simpa using hz.symm⟩
    | cons a z =>
      obtain ⟨rfl, -⟩ := List.cons_eq_cons.mp hz
      simp at hc

theorem cuts_of_not_mem (hmem : ∀ {before u v r}, rule before u v r → c ∉ u)
    (hbehind : ∀ {before u v x y}, rule before u v (x ++ c :: y) →
      ∀ y', rule before u v (x ++ c :: y')) : Cuts rule c := by
  intro before u v r x y h hs
  obtain ⟨x', rfl, rfl⟩ := exists_of_append_cons hs (hmem h)
  exact ⟨x' ++ [c], by simp, fun y' => by simpa using hbehind h y'⟩

theorem nowhere_cons :
    Nowhere rule before (c :: s) ↔ ¬ Applies rule before (c :: s) ∧ Nowhere rule (isWord c) s := by
  constructor
  · intro h
    exact ⟨h [] (c :: s) rfl, fun x y hs => h (c :: x) y (congrArg (c :: ·) hs)⟩
  · rintro ⟨hhead, htail⟩ x y hs
    cases x with
    | nil =>
      obtain rfl : c :: s = y := hs
      exact hhead
    | cons a x =>
      obtain ⟨rfl, rfl⟩ := List.cons_eq_cons.mp hs
      exact htail x y rfl

theorem Nowhere.of_append (h : Nowhere rule before (x ++ y)) :
    Nowhere rule (endsInWord before x) y := by
  rintro x' y' rfl
  rw [← endsInWord_append]
  exact h (x ++ x') y' (List.append_assoc _ _ _).symm

/-- What stands behind a text makes no new block begin in it. -/
theorem Nowhere.of_append_left (h : Nowhere rule before (x ++ y))
    (hbehind : ∀ {before s}, Applies rule before s → Applies rule before (s ++ y)) :
    Nowhere rule before x := by
  rintro x' y' rfl happlies
  exact h x' (y' ++ y) (List.append_assoc _ _ _) (hbehind happlies)

/-- A text in front of another in which no block begins. -/
theorem Nowhere.append (hx : ∀ x₁ a x₂, x = x₁ ++ a :: x₂ →
      ¬ Applies rule (endsInWord before x₁) (a :: (x₂ ++ y)))
    (hy : Nowhere rule (endsInWord before x) y) : Nowhere rule before (x ++ y) := by
  induction x generalizing before with
  | nil => exact hy
  | cons a x ih =>
    refine nowhere_cons.mpr ⟨hx [] a x rfl, ih (fun x₁ b x₂ hxs => ?_) hy⟩
    exact hx (a :: x₁) b x₂ (congrArg (a :: ·) hxs)

namespace Rewrites

/-- Every text can be rewritten. -/
theorem exists_rewrites (hrule : Consumes rule) (before : Bool) (s : List Char) :
    ∃ o, Rewrites rule before s o := by
  induction h : s.length using Nat.strongRecOn generalizing before s with
  | ind n ih =>
    subst h
    by_cases happlies : Applies rule before s
    · obtain ⟨u, v, r, rfl, h⟩ := happlies
      have hlt : r.length < (u ++ r).length := by
        have := List.length_pos_of_ne_nil (hrule h)
        rw [List.length_append]
        omega
      obtain ⟨o, ho⟩ := ih r.length hlt (endsInWord before u) r rfl
      exact ⟨v ++ o, .replace h ho⟩
    · cases s with
      | nil => exact ⟨[], .nil⟩
      | cons c s =>
        obtain ⟨o, ho⟩ := ih s.length (Nat.lt_succ_self _) (isWord c) s rfl
        exact ⟨c :: o, .keep happlies ho⟩

theorem eq_nil (hrule : Consumes rule) (h : Rewrites rule before [] o) : o = [] := by
  generalize ht : [] = t at h
  cases h with
  | nil => rfl
  | replace h _ => exact absurd (List.append_eq_nil_iff.mp ht.symm).1 (hrule h)
  | keep => cases ht

/-- Where nothing is to be replaced the text stays as it is. -/
theorem eq_self (h : Rewrites rule before s o) (hs : Nowhere rule before s) : o = s := by
  induction h with
  | nil => rfl
  | replace h _ _ => exact absurd ⟨_, _, _, rfl, h⟩ (hs [] _ rfl)
  | keep _ _ ih => rw [ih (nowhere_cons.mp hs).2]

/-- Nothing is left to be replaced, if no replacement and no change behind a place makes a new
block begin there. -/
theorem nowhere (hrule : Consumes rule) (hwords : KeepsWords rule)
    (hreplace : ∀ {before u v r}, rule before u v r → ∀ x a y o, v = x ++ a :: y →
      ¬ Applies rule (endsInWord before x) (a :: (y ++ o)))
    (hkeep : ∀ {before c s o}, Rewrites rule (isWord c) s o → Applies rule before (c :: o) →
      Applies rule before (c :: s))
    (h : Rewrites rule before s o) : Nowhere rule before o := by
  induction h with
  | nil =>
    rintro x y hs ⟨u, v, r, rfl, h⟩
    exact hrule h (List.append_eq_nil_iff.mp (List.append_eq_nil_iff.mp hs.symm).2).1
  | replace h _ ih => exact .append (fun x a y => hreplace h x a y _) (hwords h ▸ ih)
  | keep h rest ih => exact nowhere_cons.mpr ⟨fun happlies => h (hkeep rest happlies), ih⟩

/-- What another rule looks for is not written either, under the same conditions. -/
theorem nowhere_other {other : Rule} (hwords : KeepsWords rule)
    (hreplace : ∀ {before u v r}, rule before u v r → ∀ x a y o, v = x ++ a :: y →
      ¬ Applies other (endsInWord before x) (a :: (y ++ o)))
    (hkeep : ∀ {before c s o}, Rewrites rule (isWord c) s o → Applies other before (c :: o) →
      Applies other before (c :: s))
    (h : Rewrites rule before s o) (hs : Nowhere other before s) : Nowhere other before o := by
  induction h with
  | nil => exact hs
  | replace h _ ih =>
    exact .append (fun x a y => hreplace h x a y _) (hwords h ▸ ih hs.of_append)
  | keep _ rest ih =>
    obtain ⟨hhead, htail⟩ := nowhere_cons.mp hs
    exact nowhere_cons.mpr ⟨fun happlies => hhead (hkeep rest happlies), ih htail⟩

/-- What no replacement can be part of has been kept. -/
theorem exists_of_append (hx : ∀ x', x' ≠ [] → x' <:+ x → ∀ {before u v r}, rule before u v r →
      ¬ x' <+: v ∧ ¬ v <+: x')
    (h : Rewrites rule before s (x ++ o)) :
    ∃ s', s = x ++ s' ∧ Rewrites rule (endsInWord before x) s' o := by
  induction x generalizing before s with
  | nil => exact ⟨s, rfl, h⟩
  | cons a x ih =>
    generalize ht : a :: x ++ o = t at h
    cases h with
    | nil => cases ht
    | @replace _ u v r o' hr rest =>
      obtain ⟨hshort, hlong⟩ := hx _ (List.cons_ne_nil a x) (List.suffix_refl _) hr
      obtain ⟨z, hz, -⟩ | ⟨z, hz, -⟩ := List.append_eq_append_iff.mp ht
      · exact absurd ⟨z, hz.symm⟩ hshort
      · exact absurd ⟨z, hz.symm⟩ hlong
    | keep _ rest =>
      obtain ⟨rfl, rfl⟩ := List.cons_eq_cons.mp ht
      obtain ⟨s', rfl, hs'⟩ :=
        ih (fun x' hne hsuffix => hx x' hne (hsuffix.trans (List.suffix_cons _ _))) rest
      exact ⟨s', rfl, hs'⟩

theorem exists_of_append_of_not_mem (hx : ∀ {before u v r}, rule before u v r →
      ∃ a w, v = a :: w ∧ a ∉ x) (h : Rewrites rule before s (x ++ o)) :
    ∃ s', s = x ++ s' ∧ Rewrites rule (endsInWord before x) s' o := by
  refine h.exists_of_append fun x' hne hsuffix _ _ _ _ hr => ?_
  obtain ⟨a, w, rfl, ha⟩ := hx hr
  obtain ⟨b, x', rfl⟩ := List.exists_cons_of_ne_nil hne
  have hab : a ≠ b := fun h => ha (h ▸ hsuffix.subset List.mem_cons_self)
  simp [List.cons_prefix_cons, hab, hab.symm]

/-- Where no block begins the text is kept. -/
theorem exists_append
    (hx : ∀ x', x' ≠ [] → x' <:+ x → ∀ {before s}, ¬ Applies rule before (x' ++ s))
    (h : Rewrites rule before (x ++ s) o) :
    ∃ o', o = x ++ o' ∧ Rewrites rule (endsInWord before x) s o' := by
  induction x generalizing before o with
  | nil => exact ⟨o, rfl, h⟩
  | cons a x ih =>
    have hnot : ¬ Applies rule before (a :: x ++ s) :=
      hx _ (List.cons_ne_nil a x) (List.suffix_refl _)
    generalize ht : a :: x ++ s = t at h hnot
    cases h with
    | nil => cases ht
    | replace hr _ => exact absurd ⟨_, _, _, rfl, hr⟩ hnot
    | keep _ rest =>
      obtain ⟨rfl, rfl⟩ := List.cons_eq_cons.mp ht
      obtain ⟨o', rfl, ho'⟩ :=
        ih (fun x' hne hsuffix => hx x' hne (hsuffix.trans (List.suffix_cons _ _))) rest
      exact ⟨o', rfl, ho'⟩

/-- Both sides of a cut are rewritten on their own. -/
theorem append_cut (hrule : Consumes rule) (hc : Cuts rule c)
    (h : Rewrites rule before (x ++ [c]) o) (h' : Rewrites rule (isWord c) y o') :
    Rewrites rule before (x ++ c :: y) (o ++ o') := by
  generalize ht : x ++ [c] = t at h
  induction h generalizing x with
  | nil => simp at ht
  | @replace before u v r o hr rest ih =>
    obtain ⟨r', hr', hcontext⟩ := hc hr ht.symm
    obtain rfl : r = r' := List.append_cancel_left (ht.symm.trans hr')
    rw [List.append_assoc]
    obtain rfl | ⟨x', a, rfl⟩ := List.eq_nil_or_concat r
    · obtain rfl := rest.eq_nil hrule
      rw [List.append_nil] at ht
      have hword : endsInWord before u = isWord c := by rw [← ht]; simp
      have hsplit : x ++ c :: y = u ++ y := by rw [← ht]; simp
      rw [hsplit]
      exact .replace (hcontext y) (hword ▸ h')
    · rw [List.concat_eq_append, ← List.append_assoc] at ht
      obtain ⟨rfl, hac⟩ := List.append_inj' ht rfl
      obtain rfl : c = a := (List.cons_eq_cons.mp hac).1
      rw [List.append_assoc]
      have hrest := ih (x := x') (List.concat_eq_append ..).symm
      have hy := hcontext y
      rw [List.concat_eq_append, List.append_assoc, List.singleton_append] at hy
      exact .replace hy hrest
  | @keep before a s o hnot rest ih =>
    cases x with
    | nil =>
      obtain ⟨rfl, rfl⟩ := List.cons_eq_cons.mp ht
      obtain rfl := rest.eq_nil hrule
      refine .keep (fun ⟨u, v, r, hs, hr⟩ => ?_) h'
      obtain ⟨r', hr', hcontext⟩ := hc hr (x := []) hs.symm
      exact hnot ⟨u, v, r', hr', by simpa using hcontext []⟩
    | cons b x =>
      obtain ⟨rfl, rfl⟩ := List.cons_eq_cons.mp ht
      refine .keep (fun ⟨u, v, r, hs, hr⟩ => ?_) (ih rfl)
      obtain ⟨r', hr', hcontext⟩ := hc hr (x := b :: x) hs.symm
      exact hnot ⟨u, v, r', hr', by simpa using hcontext []⟩

/-- What begins a block and its replacement alike, and every kept character, begins the text and the
rewritten one. -/
theorem begins_iff {p p' : Char → Bool}
    (hreplace : ∀ {before u v r}, rule before u v r → u ≠ [] ∧ v ≠ [] ∧ (Begins p' v ↔ Begins p u))
    (hkeep : ∀ {before c s}, ¬ Applies rule before (c :: s) → p' c = p c)
    (h : Rewrites rule before s o) : Begins p' o ↔ Begins p s := by
  cases h with
  | nil => exact iff_of_false begins_nil begins_nil
  | replace hr _ =>
    obtain ⟨hu, hv, hiff⟩ := hreplace hr
    rw [begins_append hu, begins_append hv, hiff]
  | keep h _ => rw [begins_cons, begins_cons, hkeep h]

/-- What begins neither a block nor a replacement stands at the head of both texts or of none. -/
theorem prefix_iff (hx : ∀ {before u v r}, rule before u v r →
      ∃ a w a' w', u = a :: w ∧ v = a' :: w' ∧ a ∉ x ∧ a' ∉ x) (h : Rewrites rule before s o) :
    x <+: o ↔ x <+: s := by
  constructor
  · rintro ⟨o, rfl⟩
    obtain ⟨s, rfl, -⟩ := h.exists_of_append_of_not_mem fun hr => by
      obtain ⟨a, w, a', w', -, hv, -, ha'⟩ := hx hr
      exact ⟨a', w', hv, ha'⟩
    exact List.prefix_append x s
  · rintro ⟨s, rfl⟩
    obtain ⟨o, rfl, -⟩ := h.exists_append fun x' hne hsuffix before s ⟨u, v, r, hs, hr⟩ => by
      obtain ⟨a, w, a', w', rfl, -, ha, -⟩ := hx hr
      obtain ⟨b, x', rfl⟩ := List.exists_cons_of_ne_nil hne
      obtain ⟨rfl, -⟩ := List.cons_eq_cons.mp hs
      exact ha (hsuffix.subset List.mem_cons_self)
    exact List.prefix_append x o

/-- What a fold over the blocks and one over their replacements make of them, they make of the
texts. -/
theorem foldl_eq {step step' : Bool → Char → Bool}
    (hreplace : ∀ {before u v r}, rule before u v r → ∀ b, v.foldl step' b = u.foldl step b)
    (hkeep : ∀ {before c s}, ¬ Applies rule before (c :: s) → ∀ b, step' b c = step b c)
    (h : Rewrites rule before s o) (b : Bool) : o.foldl step' b = s.foldl step b := by
  induction h generalizing b with
  | nil => rfl
  | replace hr _ ih => rw [List.foldl_append, List.foldl_append, hreplace hr, ih]
  | keep h _ ih => rw [List.foldl_cons, List.foldl_cons, hkeep h, ih]

/-- A character that no block has stays at the end, and what a fold over blocks and replacements
does not tell apart, it does not tell apart in front of that character either. -/
theorem exists_last {step : Bool → Char → Bool} (hrule : Consumes rule)
    (hmem : ∀ {before u v r}, rule before u v r → c ∉ u)
    (hstep : ∀ {before u v r}, rule before u v r → ∀ b, v.foldl step b = u.foldl step b)
    (h : Rewrites rule before (x ++ [c]) o) :
    ∃ o', o = o' ++ [c] ∧ ∀ b, o'.foldl step b = x.foldl step b := by
  generalize ht : x ++ [c] = t at h
  induction h generalizing x with
  | nil => simp at ht
  | replace hr rest ih =>
    obtain ⟨x', rfl, hx'⟩ := exists_of_append_cons ht.symm (hmem hr)
    obtain ⟨o', rfl, ho'⟩ := ih hx'.symm
    refine ⟨_, (List.append_assoc ..).symm, fun b => ?_⟩
    rw [List.foldl_append, List.foldl_append, hstep hr, ho']
  | keep _ rest ih =>
    cases x with
    | nil =>
      obtain ⟨rfl, rfl⟩ := List.cons_eq_cons.mp ht
      obtain rfl := rest.eq_nil hrule
      exact ⟨[], rfl, fun _ => rfl⟩
    | cons a x =>
      obtain ⟨rfl, rfl⟩ := List.cons_eq_cons.mp ht
      obtain ⟨o', rfl, ho'⟩ := ih rfl
      exact ⟨a :: o', rfl, fun b => ho' (step b a)⟩

end Rewrites

namespace Follows

variable {pass : Bool → List Char → List Char}

theorem rewrites (h : Follows pass rule) (before : Bool) (s : List Char) :
    Rewrites rule before s (pass before s) := by
  obtain ⟨o, ho⟩ := Rewrites.exists_rewrites h.consumes before s
  exact h.eq_of_rewrites ho ▸ ho

theorem append_cut (h : Follows pass rule) (hc : Cuts rule c) (before : Bool) (x y : List Char) :
    pass before (x ++ c :: y) = pass before (x ++ [c]) ++ pass (isWord c) y :=
  h.eq_of_rewrites (.append_cut h.consumes hc (h.rewrites _ _) (h.rewrites _ _))

end Follows

end Simultaneous.Text
