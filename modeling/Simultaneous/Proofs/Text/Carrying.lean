import Simultaneous.Proofs.Text.Classes
import Simultaneous.Proofs.Text.Rewriting
import Simultaneous.Proofs.Text.Trimming

/-!
A word that a pass leaves as it is wherever it stands, while the texts on both sides of it change.
The text in front of the word is rewritten without regard to the text behind it.
-/

namespace Simultaneous.Text

/-- The pass leaves the word, `left` is true of the text in front of it just when `left'` is of what
becomes of that text, and likewise behind the word. -/
def Carries (pass : List Char → List Char) (m : List Char)
    (left left' right right' : List Char → Prop) : Prop :=
  ∀ x, ∃ x', (left' x' ↔ left x) ∧
    ∀ y, ∃ y', pass (x ++ (m ++ y)) = x' ++ (m ++ y') ∧ (right' y' ↔ right y) ∧ (y = [] → y' = [])

section

variable {m : List Char} {left left' left'' right right' right'' : List Char → Prop}

theorem Carries.trans {f g : List Char → List Char} (hf : Carries f m left left' right right')
    (hg : Carries g m left' left'' right' right'') :
    Carries (fun s => g (f s)) m left left'' right right'' := by
  intro x
  obtain ⟨x', hx', hf⟩ := hf x
  obtain ⟨x'', hx'', hg⟩ := hg x'
  refine ⟨x'', hx''.trans hx', fun y => ?_⟩
  obtain ⟨y', hy, hy', hnil⟩ := hf y
  obtain ⟨y'', hy'', hy''', hnil'⟩ := hg y'
  refine ⟨y'', ?_, hy'''.trans hy', fun h => hnil' (hnil h)⟩
  rw [← hy'', ← hy]

/-- A pass carries a word that begins with a cut, if it leaves the cut and the rest of the word. -/
theorem carries_of_cut {pass : Bool → List Char → List Char} {rule : Rule} {c : Char}
    (hpass : Follows pass rule) (hcut : Cuts rule c)
    (hlast : ∀ x, ∃ x', pass false (x ++ [c]) = x' ++ [c] ∧ (left' x' ↔ left x))
    (hbehind : ∀ y, ∃ y', pass (isWord c) (m ++ y) = m ++ y' ∧ (right' y' ↔ right y) ∧
      (y = [] → y' = [])) :
    Carries (pass false) (c :: m) left left' right right' := by
  intro x
  obtain ⟨x', hx, hx'⟩ := hlast x
  refine ⟨x', hx', fun y => ?_⟩
  obtain ⟨y', hy, hy'⟩ := hbehind y
  refine ⟨y', ?_, hy'⟩
  rw [List.cons_append, hpass.append_cut hcut, hx, hy]
  simp

/-- A word in which no block begins is left, with the text behind it rewritten on its own. -/
theorem Follows.append_of_not_applies {pass : Bool → List Char → List Char} {rule : Rule}
    (hpass : Follows pass rule)
    (hm : ∀ {before u v r}, rule before u v r → ∀ a ∈ u.head?, a ∉ m) (before : Bool)
    (y : List Char) : pass before (m ++ y) = m ++ pass (endsInWord before m) y := by
  obtain ⟨y', hy, hy'⟩ := (hpass.rewrites before (m ++ y)).exists_append
    fun x' hne hsuffix before s ⟨u, v, r, hs, hr⟩ => by
      obtain ⟨a, u, rfl⟩ := List.exists_cons_of_ne_nil (hpass.consumes hr)
      obtain ⟨b, x', rfl⟩ := List.exists_cons_of_ne_nil hne
      obtain ⟨rfl, -⟩ := List.cons_eq_cons.mp hs
      exact hm hr b rfl (hsuffix.subset List.mem_cons_self)
  rw [hy, hpass.eq_of_rewrites hy']

/-- If the cut is in no block and no block begins in the rest of the word, the pass leaves both, and
in front of them what a fold over blocks and replacements does not tell apart. -/
theorem carries_of_not_mem {pass : Bool → List Char → List Char} {rule : Rule} {c : Char}
    {step : Bool → Char → Bool} (hpass : Follows pass rule) (hcut : Cuts rule c)
    (hmem : ∀ {before u v r}, rule before u v r → c ∉ u)
    (hstep : ∀ {before u v r}, rule before u v r → ∀ b, v.foldl step b = u.foldl step b)
    (hm : ∀ {before u v r}, rule before u v r → ∀ a ∈ u.head?, a ∉ m)
    (hright : ∀ before y, right' (pass before y) ↔ right y) :
    Carries (pass false) (c :: m) (fun x => x.foldl step false = true)
      (fun x => x.foldl step false = true) right right' := by
  refine carries_of_cut hpass hcut (fun x => ?_) fun y => ?_
  · obtain ⟨x', hx, hx'⟩ :=
      (hpass.rewrites false (x ++ [c])).exists_last hpass.consumes hmem hstep
    exact ⟨x', hx, by rw [hx']⟩
  · refine ⟨_, hpass.append_of_not_applies hm _ y, hright _ y, fun h => ?_⟩
    rw [h]
    exact hpass.eq_of_rewrites .nil

theorem Carries.forget {pass : List Char → List Char} (h : Carries pass m left left' right right') :
    Carries pass m (fun _ => True) (fun _ => True) right right' := by
  intro x
  obtain ⟨x', -, hx⟩ := h x
  exact ⟨x', Iff.rfl, hx⟩

theorem begins_trimEnd {p : Char → Bool} (hp : ∀ c, isBlank c = true → p c = false)
    (s : List Char) : Begins p (trimEnd s) ↔ Begins p s := by
  obtain ⟨gap, hgap, hs⟩ := exists_gap_trimEnd s
  cases ht : trimEnd s with
  | nil =>
    rw [ht, List.nil_append] at hs
    refine iff_of_false begins_nil ?_
    rintro ⟨c, hc, hpc⟩
    simp [hp c (hgap c (List.mem_of_mem_head? (hs ▸ hc)))] at hpc
  | cons c t =>
    rw [hs, ht, begins_append (List.cons_ne_nil c t)]

theorem endsInWord_trimStart (s : List Char) :
    endsInWord false (trimStart s) = endsInWord false s := by
  induction s with
  | nil => rfl
  | cons c s ih =>
    rw [trimStart]
    split
    next hc => rw [ih, endsInWord_cons, isWord_of_isBlank hc]
    next => rfl

theorem carries_trim (hm : IsTrimmed m) (hne : m ≠ []) (hleft : ∀ x, left' (trimStart x) ↔ left x)
    (hright : ∀ y, right' (trimEnd y) ↔ right y) : Carries trim m left left' right right' := by
  intro x
  refine ⟨trimStart x, hleft x, fun y => ⟨trimEnd y, ?_, hright y, fun h => by rw [h]; rfl⟩⟩
  have hstart : trimStart (x ++ (m ++ y)) = trimStart x ++ (m ++ y) := by
    obtain ⟨c, m, rfl⟩ := List.exists_cons_of_ne_nil hne
    exact trimStart_append_cons (hm.head c rfl) x (m ++ y)
  have hend : trimEnd (trimStart x ++ (m ++ y)) = trimStart x ++ (m ++ trimEnd y) := by
    obtain rfl | ⟨m, c, rfl⟩ := List.eq_nil_or_concat m
    · exact absurd rfl hne
    · have hc := hm.last c (by simp)
      simpa using trimEnd_append_cons hc (trimStart x ++ m) y
  rw [trim, hstart, hend]

end

end Simultaneous.Text
