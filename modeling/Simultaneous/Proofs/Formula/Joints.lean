import Simultaneous.Proofs.Formula.Keeping
import Simultaneous.Proofs.Text.Carrying

/-!
Characters at which the passes can be cut: what is made of the text in front of one does not depend
on the text behind it.
-/

namespace Simultaneous.Formula

open Text

/-- A character of no block, or of one only as the factor that ends it. -/
structure IsJoint (c : Char) : Prop where
  blank : isBlank c = false
  digit : isDigit c = false
  other : c ∉ ['e', 'E', '+', '-', '.', '√', '(', ')']

theorem isJoint_p : IsJoint 'p' := ⟨by decide, by decide, by decide⟩

theorem isJoint_star : IsJoint '*' := ⟨by decide, by decide, by decide⟩

namespace IsJoint

variable {before : Bool} {c : Char} {u v r gap n x y : List Char}

theorem not_mem_gap (hc : IsJoint c) (h : IsGap gap) : c ∉ gap := by
  intro hmem
  simpa [hc.blank] using h c hmem

theorem not_mem_number (hc : IsJoint c) (h : IsNumber n) : c ∉ n := by
  intro hmem
  obtain hdigit | rfl := h.isDigit_or c hmem
  · simp [hc.digit] at hdigit
  · exact hc.other (by simp)

theorem not_mem_root (hc : IsJoint c) (h : RootRule before u v r) : c ∉ u := by
  obtain ⟨blank⟩ := h
  have hroot : c ≠ '√' := fun h => hc.other (h ▸ by simp)
  have hopen : c ≠ '(' := fun h => hc.other (h ▸ by simp)
  simp [hroot, hopen, hc.not_mem_gap blank]

theorem not_mem_bracket (hc : IsJoint c) (h : BracketRule before u v r) : c ∉ u := by
  obtain ⟨blank, -⟩ := h
  have hclose : c ≠ ')' := fun h => hc.other (h ▸ by simp)
  simp [hclose, hc.not_mem_gap blank]

theorem not_mem_space (hc : IsJoint c) (h : SpaceRule before u v r) : c ∉ u := by
  obtain ⟨blank, -⟩ := h
  exact hc.not_mem_gap blank

theorem cuts_rootRule (hc : IsJoint c) : Cuts RootRule c := by
  refine cuts_of_not_mem hc.not_mem_root fun h y' => ?_
  obtain ⟨blank⟩ := h
  exact .root blank

theorem cuts_bracketRule (hc : IsJoint c) : Cuts BracketRule c := by
  refine cuts_of_not_mem hc.not_mem_bracket @fun before u v x y h y' => ?_
  generalize hr : x ++ c :: y = r at h
  obtain ⟨blank, factor⟩ := h
  cases x with
  | nil =>
    obtain ⟨rfl, -⟩ := List.cons_eq_cons.mp hr
    exact .product blank factor
  | cons a x =>
    obtain ⟨rfl, -⟩ := List.cons_eq_cons.mp hr
    exact .product blank factor

theorem cuts_spaceRule (hc : IsJoint c) : Cuts SpaceRule c := by
  refine cuts_of_not_mem hc.not_mem_space @fun before u v x y h y' => ?_
  generalize hr : x ++ c :: y = r at h
  obtain ⟨blank, ends⟩ := h
  cases x with
  | nil => exact .run blank fun a ha => ends a (hr ▸ ha)
  | cons a x => exact .run blank fun a ha => ends a (hr ▸ ha)

theorem cuts_numberRule (hc : IsJoint c) : Cuts NumberRule c := by
  have hjoint : ∀ t, ∀ a ∈ (c :: t).head?, a ∉ ['e', 'E', '+', '-'] ∧ isDigit a = false := by
    rintro t a ⟨⟩
    exact ⟨fun h => hc.other (List.mem_append_left ['.', '√', '(', ')'] h), hc.digit⟩
  intro before u v r x y h hs
  obtain @⟨n, gap, r, f, number, blank, factor, power⟩ := h
  obtain ⟨x', rfl, rfl⟩ | ⟨z, hz, hy⟩ := List.append_eq_append_iff.mp hs
  · -- the block lies in front of the cut
    refine ⟨x' ++ [c], by simp, fun y' => .product number blank factor fun hpower => power ?_⟩
    rw [List.append_assoc, List.singleton_append] at hpower
    exact ((hpower.of_append (s := f :: x') (hjoint y')).append (c :: y))
  obtain rfl | ⟨z, a, rfl⟩ := List.eq_nil_or_concat z
  · obtain rfl : c :: y = r := hy
    rw [List.append_nil] at hz
    refine ⟨[c], by rw [hz], fun y' => .product number blank factor fun hpower => power ?_⟩
    exact ((hpower.of_append (s := [f]) (hjoint y')).append (c :: y))
  · -- the cut is the factor of the block
    have hlast : (n ++ gap) ++ [f] = (x ++ z) ++ [a] := by simpa using hz
    obtain ⟨hblock, hfactor⟩ := List.append_inj' hlast rfl
    obtain rfl : f = a := (List.cons_eq_cons.mp hfactor).1
    cases z with
    | nil =>
      obtain ⟨rfl, rfl⟩ : c = f ∧ y = r := by simpa using hy
      refine ⟨[], by simpa using hz.symm, fun y' => .product number blank factor fun hpower => ?_⟩
      obtain ⟨e, sign, d, s, hs, he, -, -⟩ := hpower
      obtain rfl : c = e := (List.cons_eq_cons.mp hs).1
      exact (hjoint [] c rfl).1 (List.mem_append_left ['+', '-'] he)
    | cons b z =>
      obtain rfl : c = b := (List.cons_eq_cons.mp hy).1
      have hmem : c ∈ n ++ gap := hblock ▸ by simp
      obtain hmem | hmem := List.mem_append.mp hmem
      · exact absurd hmem (hc.not_mem_number number)
      · exact absurd hmem (hc.not_mem_gap blank)

end IsJoint

/-- Whether a name ends where the text ends: a letter of it, perhaps with digits behind it. -/
def endsInName (letter : Char → Bool) (before : Bool) (s : List Char) : Bool :=
  s.foldl (fun b c => if isDigit c then b else letter c) before

section

variable {letter : Char → Bool} {before : Bool} {s x : List Char} {c : Char}

@[simp] theorem endsInName_nil : endsInName letter before [] = before := rfl

@[simp] theorem endsInName_cons : endsInName letter before (c :: s) =
    endsInName letter (if isDigit c then before else letter c) s := rfl

@[simp] theorem endsInName_append : endsInName letter before (s ++ x) =
    endsInName letter (endsInName letter before s) x := List.foldl_append

end

section

variable {c : Char} {m : List Char} {right right' : List Char → Prop}

theorem carries_nameRoots (hc : IsJoint c) (hm : '√' ∉ m)
    (hright : ∀ y, right' (nameRoots 0 y) ↔ right y) :
    Carries (nameRoots 0) (c :: m) (fun x => endsInName isWord false x = true)
      (fun x => endsInName isWord false x = true) right right' := by
  refine carries_of_not_mem follows_nameRoots hc.cuts_rootRule hc.not_mem_root (fun h b => ?_)
    (fun h a ha => ?_) fun _ => hright
  · obtain ⟨-⟩ := h
    show endsInName isWord b _ = endsInName isWord b _
    simp [(by decide : isDigit '(' = false)]
  · obtain ⟨-⟩ := h
    obtain rfl : '√' = a := by simpa using ha
    exact hm

theorem carries_multiplyBrackets (hc : IsJoint c) (hm : ')' ∉ m)
    (hright : ∀ y, right' (multiplyBrackets 0 y) ↔ right y) :
    Carries (multiplyBrackets 0) (c :: m) (fun x => endsInWord false x = true)
      (fun x => endsInWord false x = true) right right' := by
  refine carries_of_not_mem follows_multiplyBrackets hc.cuts_bracketRule hc.not_mem_bracket
    (fun h b => ?_) (fun h a ha => ?_) fun _ => hright
  · obtain @⟨_, gap, r, f, blank, factor⟩ := h
    exact keepsWords_bracketRule (.product (r := r) blank factor)
  · obtain ⟨-, -⟩ := h
    obtain rfl : ')' = a := by simpa using ha
    exact hm

theorem carries_singleSpaced (hc : IsJoint c) (hm : ∀ a ∈ m, isBlank a = false)
    (hright : ∀ y, right' (singleSpaced false y) ↔ right y) :
    Carries (singleSpaced false) (c :: m) (fun x => endsInWord false x = true)
      (fun x => endsInWord false x = true) right right' := by
  have hstep : ∀ {before u v r}, SpaceRule before u v r → ∀ b, endsInWord b v = endsInWord b u := by
    rintro before u v r ⟨blank, ends⟩ b
    exact keepsWords_spaceRule (.run blank ends)
  have hhead : ∀ {before u v r}, SpaceRule before u v r → ∀ a ∈ u.head?, a ∉ m := by
    rintro before u v r ⟨blank, -⟩ a ha hmem
    simpa [hm a hmem] using blank a (List.mem_of_mem_head? ha)
  exact (carries_of_not_mem follows_singleSpaced hc.cuts_spaceRule hc.not_mem_space hstep hhead
    fun _ => hright :)

end

end Simultaneous.Formula
