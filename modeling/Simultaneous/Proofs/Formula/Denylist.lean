import Simultaneous.Proofs.Formula.Acceptance
import Simultaneous.Proofs.Text.Lowering

/-!
Forbidden words in plain forms. They are looked for in the text as it is given, and the passes write
two things that can complete one: `pi` for its sign, and `sqrt` for a root.
-/

namespace Simultaneous.Formula

open Text

/-- The signs and superscripts with a plain form, and what they are replaced by apart from `pi`. -/
def signs : List Char := [
  '−', '–', 'π', '×', '·', '÷', '^', '-', '*', '/',
  '⁰', '¹', '²', '³', '⁴', '⁵', '⁶', '⁷', '⁸', '⁹', '⁻',
  '0', '1', '2', '3', '4', '5', '6', '7', '8', '9']

theorem plainSign_of_not_mem {c : Char} (h : c ∉ signs) : plainSign c = [c] := by
  unfold plainSign
  split
  all_goals first
    | rfl
    | exact absurd (by decide) h

theorem plainSign_of_mem : ∀ c ∈ signs,
    c = 'π' ∨ plainSign c ≠ [] ∧ plainSign c ⊆ signs :=
  List.all_iff_forall_prop.mp (by decide)

/-- The texts that read as `p` once `pi` is written for its sign. -/
def spellings : List Char → List (List Char)
  | [] => [[]]
  | ['p'] => [['p'], ['π']]
  | 'p' :: 'i' :: p => (spellings p).flatMap fun r => ['p' :: 'i' :: r, 'π' :: r]
  | c :: p => (spellings p).map (c :: ·)

/-- The same inside a longer text, where the sign may stand for more than the first letter. -/
def innerSpellings (p : List Char) : List (List Char) :=
  spellings p ++ match p with
    | 'i' :: p => (spellings p).map ('π' :: ·)
    | _ => []

theorem cons_prefix_flatMap_plainSign {c d : Char} {p s : List Char} (hd : d ∉ signs) :
    d :: p <+: (c :: s).flatMap plainSign ↔
      c = d ∧ p <+: s.flatMap plainSign ∨
        c = 'π' ∧ d = 'p' ∧ p <+: 'i' :: s.flatMap plainSign := by
  have hpi : d ≠ 'π' := fun h => hd (h ▸ by decide)
  rw [List.flatMap_cons]
  by_cases hc : c ∈ signs
  · have hcd : c ≠ d := fun h => hd (h ▸ hc)
    obtain rfl | ⟨hne, hsigns⟩ := plainSign_of_mem c hc
    · simp [plainSign, List.cons_prefix_cons, hpi.symm]
    · obtain ⟨a, v, hav⟩ := List.exists_cons_of_ne_nil hne
      rw [hav, List.cons_append, List.cons_prefix_cons]
      have had : d ≠ a := fun h => hd (h ▸ hsigns (by simp [hav]))
      have hcpi : c ≠ 'π' := by
        rintro rfl
        exact absurd (hsigns (List.mem_cons_self : 'p' ∈ plainSign 'π')) (by decide)
      simp [had, hcd, hcpi]
  · have hcpi : c ≠ 'π' := fun h => hc (h ▸ by decide)
    rw [plainSign_of_not_mem hc, List.singleton_append, List.cons_prefix_cons]
    simp [hcpi, eq_comm]

theorem exists_spelling_pi {p : List Char} {occurs : List Char → Prop} :
    (∃ r ∈ spellings ('p' :: 'i' :: p), occurs r) ↔
      (∃ r ∈ spellings p, occurs ('p' :: 'i' :: r)) ∨ ∃ r ∈ spellings p, occurs ('π' :: r) := by
  simp only [spellings, List.mem_flatMap, List.mem_cons, List.not_mem_nil, or_false]
  constructor
  · rintro ⟨_, ⟨r, hr, rfl | rfl⟩, ho⟩
    · exact .inl ⟨r, hr, ho⟩
    · exact .inr ⟨r, hr, ho⟩
  · rintro (⟨r, hr, ho⟩ | ⟨r, hr, ho⟩)
    · exact ⟨_, ⟨r, hr, .inl rfl⟩, ho⟩
    · exact ⟨_, ⟨r, hr, .inr rfl⟩, ho⟩

theorem prefix_flatMap_plainSign {p : List Char} (s : List Char) (hp : ∀ c ∈ p, c ∉ signs) :
    p <+: s.flatMap plainSign ↔ ∃ r ∈ spellings p, r <+: s := by
  -- The cases are those of `spellings`: a last `p`, a `pi`, and any other letter.
  induction p using spellings.induct generalizing s with
  | case1 => simp [spellings]
  | case2 =>
    cases s with
    | nil => simp [spellings]
    | cons c s =>
      rw [cons_prefix_flatMap_plainSign (hp _ List.mem_cons_self)]
      simp [spellings, List.cons_prefix_cons, eq_comm]
  | case3 p ih =>
    have hp' : ∀ c ∈ p, c ∉ signs := fun c hc => hp c (by simp [hc])
    rw [exists_spelling_pi]
    cases s with
    | nil => simp
    | cons c s =>
      rw [cons_prefix_flatMap_plainSign (hp _ List.mem_cons_self), List.cons_prefix_cons, ih s hp']
      cases s with
      | nil => simp [List.cons_prefix_cons, eq_comm, and_comm]
      | cons a s =>
        rw [cons_prefix_flatMap_plainSign (by decide), ih s hp']
        simp [List.cons_prefix_cons, eq_comm, and_left_comm]
  | case4 c p hlast hpi ih =>
    have hp' : ∀ a ∈ p, a ∉ signs := fun a ha => hp a (List.mem_cons_of_mem c ha)
    rw [spellings.eq_4 c p hlast hpi]
    cases s with
    | nil => simp
    | cons a s =>
      rw [cons_prefix_flatMap_plainSign (hp _ List.mem_cons_self), ih s hp']
      have hnone : ¬ (c = 'p' ∧ p <+: 'i' :: s.flatMap plainSign) := by
        rintro ⟨hc, hpre⟩
        cases p with
        | nil => exact hlast hc rfl
        | cons b p => exact hpi p hc (by rw [(List.cons_prefix_cons.mp hpre).1])
      simp [hnone, List.cons_prefix_cons, eq_comm, and_left_comm]

theorem infix_cons_flatMap_plainSign {c : Char} {p s : List Char} (hne : p ≠ [])
    (hp : ∀ a ∈ p, a ∉ signs) :
    p <:+: (c :: s).flatMap plainSign ↔ p <+: (c :: s).flatMap plainSign ∨
      (c = 'π' ∧ p <+: 'i' :: s.flatMap plainSign) ∨ p <:+: s.flatMap plainSign := by
  by_cases hpi : c = 'π'
  · subst hpi
    rw [List.flatMap_cons, show plainSign 'π' = ['p', 'i'] from rfl, List.cons_append,
      List.singleton_append, List.infix_cons_iff, List.infix_cons_iff]
    simp
  · simp only [hpi, false_and, false_or]
    refine ⟨fun h => ?_, fun h => h.elim List.IsPrefix.isInfix fun h => ?_⟩
    · by_cases hc : c ∈ signs
      · obtain ⟨-, hsigns⟩ := (plainSign_of_mem c hc).resolve_left hpi
        exact .inr ((infix_append_iff hne fun a ha hap => hp a hap (hsigns ha)).mp h)
      · rw [List.flatMap_cons, plainSign_of_not_mem hc] at h ⊢
        exact List.infix_cons_iff.mp h
    · rw [List.flatMap_cons]
      exact h.trans (List.suffix_append _ _).isInfix

theorem exists_innerSpelling {p : List Char} {occurs : List Char → Prop} :
    (∃ r ∈ innerSpellings p, occurs r) ↔ (∃ r ∈ spellings p, occurs r) ∨
      ∃ q, p = 'i' :: q ∧ ∃ r ∈ spellings q, occurs ('π' :: r) := by
  unfold innerSpellings
  split
  · simp [or_and_right, exists_or]
  next hi =>
    simp only [List.append_nil]
    refine (or_iff_left ?_).symm
    rintro ⟨q, rfl, -⟩
    exact hi q rfl

/-- Where a word stands once the signs are written in plain characters. -/
theorem infix_flatMap_plainSign {p : List Char} (s : List Char) (hne : p ≠ [])
    (hp : ∀ c ∈ p, c ∉ signs) :
    p <:+: s.flatMap plainSign ↔ ∃ r ∈ innerSpellings p, r <:+: s := by
  rw [exists_innerSpelling]
  induction s with
  | nil =>
    have hprefix := prefix_flatMap_plainSign [] hp
    simp only [List.flatMap_nil, List.prefix_nil, List.infix_nil] at hprefix ⊢
    simpa using hprefix
  | cons c s ih =>
    rw [infix_cons_flatMap_plainSign hne hp, prefix_flatMap_plainSign _ hp, ih]
    have hi : p <+: 'i' :: s.flatMap plainSign ↔
        ∃ q, p = 'i' :: q ∧ ∃ r ∈ spellings q, r <+: s := by
      rw [List.prefix_cons_iff, or_iff_right hne]
      refine exists_congr fun q => and_congr_right fun hq => ?_
      subst hq
      exact prefix_flatMap_plainSign s fun c hc => hp c (List.mem_cons_of_mem _ hc)
    rw [hi]
    simp only [List.infix_cons_iff, List.cons_prefix_cons, and_or_left, exists_or]
    have hsign : (∃ q, p = 'i' :: q ∧ ∃ r ∈ spellings q, 'π' = c ∧ r <+: s) ↔
        c = 'π' ∧ ∃ q, p = 'i' :: q ∧ ∃ r ∈ spellings q, r <+: s :=
      ⟨fun ⟨q, hq, r, hr, hc, h⟩ => ⟨hc.symm, q, hq, r, hr, h⟩,
        fun ⟨hc, q, hq, r, hr, h⟩ => ⟨q, hq, r, hr, hc.symm, h⟩⟩
    rw [hsign, or_assoc]
    exact or_congr_right or_left_comm

theorem isOutsideLetters_of_mem_signs : ∀ c ∈ signs, IsOutsideLetters c.toNat :=
  List.all_iff_forall_prop.mp (by decide)

theorem flatMap_plainSign_eq_self {s : List Char} (h : ∀ c ∈ s, c ∉ signs) :
    s.flatMap plainSign = s := by
  rw [List.flatMap_congr fun c hc => plainSign_of_not_mem (h c hc), List.flatMap_singleton']

theorem lower_flatMap_plainSign (s : List Char) :
    lower (s.flatMap plainSign) = (lower s).flatMap plainSign := by
  rw [lower, lower, List.flatMap_assoc, List.flatMap_assoc]
  refine congrArg s.flatMap (funext fun c => ?_)
  by_cases hc : c ∈ signs
  · have hsigns : ∀ c ∈ signs,
        (plainSign c).flatMap lowerChar = (lowerChar c).flatMap plainSign :=
      List.all_iff_forall_prop.mp (by decide)
    exact hsigns c hc
  · rw [plainSign_of_not_mem hc, List.flatMap_singleton]
    refine (flatMap_plainSign_eq_self fun a ha hsign => hc ?_).symm
    rwa [(isOutsideLetters_of_mem_signs a hsign).isCaseless.eq_of_mem c ha]

/-- Characters without case that do not stand in the word. -/
def IsForeign (p u : List Char) : Prop := u ≠ [] ∧ ∀ c ∈ u, IsCaseless c ∧ c ∉ p

theorem IsForeign.avoids_lower {p u : List Char} (h : IsForeign p u) : Avoids p (lower u) := by
  rw [lower_eq_self fun c hc => (h.2 c hc).1]
  exact ⟨h.1, fun c hc => (h.2 c hc).2⟩

theorem infix_lower_iff {block : List Char → List Char → Prop} {p s t : List Char}
    (hblock : ∀ u v, block u v → IsForeign p u ∧ IsForeign p v) (h : Respells block s t) :
    p <:+: lower s ↔ p <:+: lower t :=
  have hlower : Respells (fun u v => Avoids p u ∧ Avoids p v) (lower s) (lower t) :=
    h.flatMap_both fun u v huv =>
      (hblock u v huv).imp IsForeign.avoids_lower IsForeign.avoids_lower
  hlower.infix_iff fun _ _ => id

theorem mem_signs_of_raised {c d : Char} (h : raised? c = some d) : c ∈ signs ∧ d ∈ signs := by
  unfold raised? at h
  split at h <;> cases h <;> decide

theorem isForeign_of_signs {p u : List Char} (hp : ∀ c ∈ p, c ∉ signs) (hne : u ≠ [])
    (hu : ∀ c ∈ u, c ∈ signs) : IsForeign p u :=
  ⟨hne, fun c hc => ⟨(isOutsideLetters_of_mem_signs c (hu c hc)).isCaseless,
    fun hcp => hp c hcp (hu c hc)⟩⟩

theorem infix_lower_lowerRaised {p : List Char} (hp : ∀ c ∈ p, c ∉ signs) (s : List Char) :
    p <:+: lower s ↔ p <:+: lower (lowerRaised false s) := by
  refine infix_lower_iff (fun u v huv => ?_) (respells_lowerRaised false s)
  have hstar : '*' ∈ signs := by decide
  cases huv with
  | first raised | next raised =>
    obtain ⟨hc, hd⟩ := mem_signs_of_raised raised
    exact ⟨isForeign_of_signs hp nofun (by simp [hc]),
      isForeign_of_signs hp nofun (by simp [hd, hstar])⟩

/-- Digits, blanks and what stands next to them where a product is written out. -/
def IsSpacing (c : Char) : Prop := isDigit c = true ∨ isBlank c = true ∨ c = ')' ∨ c = '*'

theorem IsSpacing.isCaseless {c : Char} (h : IsSpacing c) : IsCaseless c := by
  obtain h | h | rfl | rfl := h
  · exact (isOutsideLetters_of_isDigit h).isCaseless
  · exact (isOutsideLetters_of_isBlank h).isCaseless
  all_goals exact IsOutsideLetters.isCaseless (by decide)

theorem IsGap.isSpacing {gap : List Char} (h : IsGap gap) : ∀ c ∈ gap, IsSpacing c :=
  fun c hc => .inr (.inl (h c hc))

theorem isForeign_of_spacing {p u : List Char} (hp : ∀ c ∈ p, ¬ IsSpacing c) (hne : u ≠ [])
    (hu : ∀ c ∈ u, IsSpacing c) : IsForeign p u :=
  ⟨hne, fun c hc => ⟨(hu c hc).isCaseless, fun hcp => hp c hcp (hu c hc)⟩⟩

theorem FactorBlock.isForeign {p u v : List Char} (hp : ∀ c ∈ p, ¬ IsSpacing c)
    (h : FactorBlock u v) : IsForeign p u ∧ IsForeign p v := by
  have hstar : IsSpacing '*' := .inr (.inr (.inr rfl))
  have hclose : IsSpacing ')' := .inr (.inr (.inl rfl))
  cases h with
  | number digit blank =>
    exact ⟨isForeign_of_spacing hp nofun (List.forall_mem_cons.mpr ⟨.inl digit, blank.isSpacing⟩),
      isForeign_of_spacing hp nofun (by simp [hstar, show IsSpacing _ from .inl digit])⟩
  | bracket blank =>
    exact ⟨isForeign_of_spacing hp nofun (List.forall_mem_cons.mpr ⟨hclose, blank.isSpacing⟩),
      isForeign_of_spacing hp nofun (by simp [hstar, hclose])⟩

theorem SpaceBlock.isForeign {p u v : List Char} (hp : ∀ c ∈ p, ¬ IsSpacing c)
    (h : SpaceBlock u v) : IsForeign p u ∧ IsForeign p v := by
  obtain ⟨blank⟩ := h
  have hspace : IsGap [' '] := by simp [IsGap]; decide
  exact ⟨isForeign_of_spacing hp (List.cons_ne_nil _ _) blank.isSpacing,
    isForeign_of_spacing hp (List.cons_ne_nil _ _) hspace.isSpacing⟩

theorem infix_lower_trim {p : List Char} (hne : p ≠ []) (hp : ∀ c ∈ p, ¬ IsSpacing c)
    (s : List Char) : p <:+: lower s ↔ p <:+: lower (trim s) := by
  obtain ⟨before, after, hbefore, hafter, hs⟩ := exists_gaps_trim s
  have hforeign {gap : List Char} (h : IsGap gap) : ∀ c ∈ lower gap, c ∉ p := by
    rw [lower_eq_self fun c hc => (h.isSpacing c hc).isCaseless]
    exact fun c hc hcp => hp c hcp (h.isSpacing c hc)
  conv_lhs => rw [hs]
  rw [lower_append, lower_append, infix_append_right_iff hne (hforeign hafter),
    infix_append_iff hne (hforeign hbefore)]

/-- The passes after the one for roots neither break a word nor make one. -/
theorem infix_lower_inPlainSigns {p : List Char} (hne : p ≠ []) (hp : ∀ c ∈ p, ¬ IsSpacing c)
    (s : List Char) :
    p <:+: lower (inPlainSigns s) ↔
      p <:+: lower (nameRoots 0 (lowerRaised false (s.flatMap plainSign))) := by
  rw [inPlainSigns, ← infix_lower_trim hne hp,
    ← infix_lower_iff (fun _ _ => SpaceBlock.isForeign hp) (respells_singleSpaced _).1,
    ← infix_lower_iff (fun _ _ => FactorBlock.isForeign hp) (respells_multiplyBrackets 0 _),
    List.drop_zero,
    ← infix_lower_iff (fun _ _ => FactorBlock.isForeign hp) (respells_multiplyNumbers 0 false _),
    List.drop_zero]

/-- The word ends with the first letter of a root that follows it. -/
def EndsAtRoot (p s : List Char) : Prop :=
  ∃ w gap, p = w ++ ['s'] ∧ IsGap gap ∧ w ++ '√' :: (gap ++ ['(']) <:+: s

theorem EndsAtRoot.mono {p s t : List Char} (h : EndsAtRoot p s) (hst : s <:+: t) :
    EndsAtRoot p t := by
  obtain ⟨w, gap, hp, hgap, hw⟩ := h
  exact ⟨w, gap, hp, hgap, hw.trans hst⟩

theorem prefix_of_prefix_roots {p s t : List Char} (hp : 'q' ∉ p) (h : Respells RootBlock s t)
    (hpre : p <+: t) :
    p <+: s ∨ ∃ w gap, p = w ++ ['s'] ∧ IsGap gap ∧ w ++ '√' :: (gap ++ ['(']) <+: s := by
  induction h generalizing p with
  | nil => exact .inl hpre
  | keep c rest ih =>
    obtain rfl | ⟨q, rfl, hq⟩ := List.prefix_cons_iff.mp hpre
    · exact .inl List.nil_prefix
    · obtain hq | ⟨w, gap, rfl, hgap, hw⟩ := ih (fun h => hp (List.mem_cons_of_mem c h)) hq
      · exact .inl (List.cons_prefix_cons.mpr ⟨rfl, hq⟩)
      · exact .inr ⟨c :: w, gap, rfl, hgap, List.cons_prefix_cons.mpr ⟨rfl, hw⟩⟩
  | replace replaced rest ih =>
    obtain ⟨hgap⟩ := replaced
    obtain rfl | ⟨q, rfl, hq⟩ := List.prefix_cons_iff.mp hpre
    · exact .inl List.nil_prefix
    · obtain rfl | ⟨r, rfl, -⟩ := List.prefix_cons_iff.mp hq
      · exact .inr ⟨[], _, rfl, hgap, List.prefix_append _ _⟩
      · simp at hp

/-- A word without a bracket lies on one side of it. -/
theorem infix_append_bracket {p a b : List Char} (hp : '(' ∉ p) (h : p <:+: a ++ '(' :: b) :
    p <:+: a ∨ p <:+: b := by
  obtain h | h | ⟨l, r, rfl, hl, hr⟩ := List.infix_append_iff.mp h
  · exact .inl h
  · obtain hpre | h := List.infix_cons_iff.mp h
    · obtain rfl | ⟨q, rfl, -⟩ := List.prefix_cons_iff.mp hpre
      · exact .inl (List.nil_infix)
      · exact absurd List.mem_cons_self hp
    · exact .inr h
  · obtain rfl | ⟨q, rfl, -⟩ := List.prefix_cons_iff.mp hr
    · exact .inl (by simpa using hl.isInfix)
    · simp at hp

theorem infix_of_infix_roots {p s t : List Char} (hp : 'q' ∉ p) (hbracket : '(' ∉ p)
    (hname : ¬ p <:+: ['s', 'q', 'r', 't']) (h : Respells RootBlock s t) (hpart : p <:+: t) :
    p <:+: s ∨ EndsAtRoot p s := by
  induction h with
  | nil => exact .inl hpart
  | @keep c s t rest ih =>
    obtain hpre | hpart := List.infix_cons_iff.mp hpart
    · obtain hpre | ⟨w, gap, hw, hgap, hpre⟩ := prefix_of_prefix_roots hp (.keep c rest) hpre
      · exact .inl hpre.isInfix
      · exact .inr ⟨w, gap, hw, hgap, hpre.isInfix⟩
    · have hs := (List.suffix_cons c s).isInfix
      exact (ih hpart).imp (·.trans hs) (·.mono hs)
  | @replace u v s t replaced rest ih =>
    have hs := (List.suffix_append u s).isInfix
    obtain ⟨-⟩ := replaced
    -- What stands in the text that is written lies in the name of the root or behind its bracket.
    have hpart := infix_append_bracket (a := ['s', 'q', 'r', 't']) hbracket hpart
    exact (ih (hpart.resolve_left hname)).imp (·.trans hs) (·.mono hs)

theorem blanks_le_length (s : List Char) : blanks s ≤ s.length := by
  induction s with
  | nil => exact Nat.zero_le _
  | cons c s ih =>
    rw [blanks]
    split
    · exact Nat.succ_le_succ ih
    · exact Nat.zero_le _

/-- A root sign ends whatever is replaced before it. -/
theorem nameRoots_append_sign {skip : Nat} {x : List Char} (w : List Char)
    (h : skip ≤ x.length) :
    nameRoots skip (x ++ '√' :: w) = nameRoots skip x ++ nameRoots 0 ('√' :: w) := by
  induction x generalizing skip with
  | nil =>
    obtain rfl := Nat.le_zero.mp h
    rfl
  | cons c x ih =>
    cases skip with
    | succ skip => exact ih (Nat.le_of_succ_le_succ h)
    | zero =>
      -- Blanks do not reach over the sign, and it is no bracket.
      have hblanks : blanks (x ++ '√' :: w) = blanks x := blanks_append (by decide) x w
      have hdrop : (x ++ '√' :: w).drop (blanks x) = x.drop (blanks x) ++ '√' :: w :=
        List.drop_append_of_le_length (blanks_le_length x)
      rw [List.cons_append, nameRoots, nameRoots, hblanks, hdrop]
      cases hx : x.drop (blanks x) with
      | nil => simp [ih (Nat.zero_le _)]
      | cons b y =>
        have hlt : blanks x + 1 ≤ x.length := by
          by_contra hle
          rw [List.drop_of_length_le (by omega)] at hx
          cases hx
        rw [List.cons_append, List.head?_cons, List.head?_cons, ih hlt, ih (Nat.zero_le _)]
        by_cases hroot : (c == '√' && some b == some '(') = true
        · rw [if_pos hroot, if_pos hroot]
          rfl
        · rw [if_neg hroot, if_neg hroot]
          rfl

theorem nameRoots_root {gap y : List Char} (h : IsGap gap) :
    ∃ z, nameRoots 0 ('√' :: (gap ++ '(' :: y)) = 's' :: z := by
  have hblanks : blanks (gap ++ '(' :: y) = gap.length := by
    rw [blanks_append (by decide) gap y, blanks_eq_length h]
  rw [nameRoots, hblanks, List.drop_left]
  exact ⟨_, rfl⟩

/-- The letters, underscores and points that forbidden words are made of, none of which a pass
replaces or writes except in `pi` and `sqrt`. -/
structure IsWord (p : List Char) : Prop where
  nonempty : p ≠ []
  not_sign : ∀ c ∈ p, c ∉ signs
  not_spacing : ∀ c ∈ p, ¬ IsSpacing c
  not_root : '√' ∉ p ∧ '(' ∉ p ∧ 'q' ∉ p ∧ ¬ p <:+: ['s', 'q', 'r', 't']

theorem isWord_of_mem_forbidden : ∀ token ∈ forbidden, IsWord token.toList := by
  have hforbidden : ∀ token ∈ forbidden, token.toList ≠ [] ∧
      (token.toList.all fun c =>
        decide (c ∉ signs ∧ isDigit c = false ∧ isBlank c = false ∧ c ≠ ')')) ∧
      '√' ∉ token.toList ∧ '(' ∉ token.toList ∧ 'q' ∉ token.toList ∧
        ¬ token.toList <:+: ['s', 'q', 'r', 't'] := by decide
  intro token hmem
  obtain ⟨hne, hchars, hroot⟩ := hforbidden token hmem
  have hchars := List.all_iff_forall_prop.mp hchars
  refine ⟨hne, fun c hc => (hchars c hc).1, fun c hc hspacing => ?_, hroot⟩
  obtain ⟨hsign, hdigit, hblank, hclose⟩ := hchars c hc
  obtain h | h | h | rfl := hspacing
  · simp [hdigit] at h
  · simp [hblank] at h
  · exact hclose h
  · exact hsign (by decide)

theorem isCaseless_root : IsCaseless '√' := IsOutsideLetters.isCaseless (by decide)

theorem IsGap.isCaseless_bracket {gap : List Char} (h : IsGap gap) :
    ∀ c ∈ gap ++ ['('], IsCaseless c := by
  intro c hc
  obtain hc | rfl := by simpa using hc
  · exact (h.isSpacing c hc).isCaseless
  · exact IsOutsideLetters.isCaseless (by decide)

theorem IsGap.lower_root {gap : List Char} (h : IsGap gap) :
    lower ('√' :: (gap ++ ['('])) = '√' :: (gap ++ ['(']) :=
  lower_eq_self (List.forall_mem_cons.mpr ⟨isCaseless_root, h.isCaseless_bracket⟩)

theorem RootBlock.lower {u v : List Char} (h : RootBlock u v) :
    RootBlock (Text.lower u) (Text.lower v) := by
  obtain ⟨hgap⟩ := h
  have hname : Text.lower ['s', 'q', 'r', 't', '('] = ['s', 'q', 'r', 't', '('] := by decide
  rw [List.cons_append, hgap.lower_root, hname]
  exact .root hgap

theorem endsAtRoot_lower_iff {p s : List Char} :
    EndsAtRoot p (lower s) ↔ ∃ w gap x y, p = w ++ ['s'] ∧ IsGap gap ∧
      s = x ++ '√' :: (gap ++ '(' :: y) ∧ w <:+ lower x := by
  constructor
  · rintro ⟨w, gap, hp, hgap, a, b, hab⟩
    obtain ⟨x, y, rfl, hx, hy⟩ := exists_of_lower_eq isCaseless_root (s := s) (u := a ++ w)
      (w := gap ++ ['('] ++ b) (by rw [← hab]; simp)
    obtain ⟨z, rfl, -⟩ := exists_of_lower_eq_append hgap.isCaseless_bracket hy
    exact ⟨w, gap, x, z, hp, hgap, by simp, a, hx.symm⟩
  · rintro ⟨w, gap, x, y, hp, hgap, rfl, a, hx⟩
    refine ⟨w, gap, hp, hgap, a, lower y, ?_⟩
    have hs : x ++ '√' :: (gap ++ '(' :: y) = x ++ '√' :: (gap ++ ['(']) ++ y := by simp
    rw [hs, lower_append, lower_append, hgap.lower_root, ← hx, List.append_assoc a w]

section IsWord

variable {p : List Char} (hp : IsWord p)
include hp

theorem IsWord.isForeign_root {u v : List Char} (h : RootBlock u v) : IsForeign p u := by
  obtain ⟨hgap⟩ := h
  refine ⟨nofun, fun c hc => ?_⟩
  obtain rfl | hc : c = '√' ∨ c ∈ _ ++ ['('] := List.mem_cons.mp hc
  · exact ⟨isCaseless_root, hp.not_root.1⟩
  refine ⟨hgap.isCaseless_bracket c hc, fun hcp => ?_⟩
  obtain hc | rfl := by simpa using hc
  · exact hp.not_spacing c hcp (hgap.isSpacing c hc)
  · exact hp.not_root.2.1 hcp

theorem IsWord.not_sign_root {w gap : List Char} (hw : p = w ++ ['s']) (hgap : IsGap gap) :
    ∀ c ∈ w ++ '√' :: (gap ++ ['(']), c ∉ signs := by
  have hblank : ∀ c ∈ signs, isBlank c = false := List.all_iff_forall_prop.mp (by decide)
  intro c hc
  obtain hc | rfl | hc | rfl := by simpa using hc
  · exact hp.not_sign c (by simp [hw, hc])
  · decide
  · exact fun hsign => absurd (hgap c hc) (by simp [hblank c hsign])
  · decide

/-- What the pass for roots does to the places of a word. -/
theorem IsWord.infix_lower_nameRoots (s : List Char) :
    p <:+: lower (nameRoots 0 s) ↔ p <:+: lower s ∨ EndsAtRoot p (lower s) := by
  have hrespells := respells_nameRoots 0 s
  rw [List.drop_zero] at hrespells
  constructor
  · refine infix_of_infix_roots hp.not_root.2.2.1 hp.not_root.2.1 hp.not_root.2.2.2
      (hrespells.flatMap_both fun u v => RootBlock.lower)
  · rintro (hpart | hroot)
    · have hlower : Respells (fun u _ => Avoids p u) (lower s) (lower (nameRoots 0 s)) :=
        hrespells.flatMap_both fun u v huv => (hp.isForeign_root huv).avoids_lower
      exact hlower.infix_of_avoids (fun _ _ => id) hpart
    · obtain ⟨w, gap, x, y, rfl, hgap, rfl, hw⟩ := endsAtRoot_lower_iff.mp hroot
      obtain ⟨z, hz⟩ := nameRoots_root (y := y) hgap
      rw [nameRoots_append_sign _ (Nat.zero_le _), hz, lower_append]
      have hlower : Respells (fun u _ => Avoids w u) (lower x) (lower (nameRoots 0 x)) :=
        (respells_nameRoots 0 x).flatMap_both fun u v huv =>
          (hp.isForeign_root huv).avoids_lower.of_subset (List.subset_append_left w ['s'])
      obtain ⟨a, ha⟩ := hlower.suffix_of_avoids (fun _ _ => id) hw
      refine ⟨a, lower z, ?_⟩
      rw [← ha, List.append_assoc, List.append_assoc, List.append_assoc]
      rfl

theorem IsWord.endsAtRoot_lowerRaised (s : List Char) :
    EndsAtRoot p (lower (lowerRaised false s)) ↔ EndsAtRoot p (lower s) := by
  refine exists_congr fun w => exists_congr fun gap => ?_
  refine and_congr_right fun hw => and_congr_right fun hgap => ?_
  exact (infix_lower_lowerRaised (hp.not_sign_root hw hgap) s).symm

end IsWord

theorem spellings_eq_self {p : List Char} (hp : 'p' ∉ p) : spellings p = [p] := by
  induction p with
  | nil => rfl
  | cons c p ih =>
    have hc : c ≠ 'p' := fun h => hp (h ▸ List.mem_cons_self)
    rw [spellings.eq_4 c p (fun h => absurd h hc) (fun _ h => absurd h hc),
      ih fun h => hp (List.mem_cons_of_mem c h)]
    rfl

theorem IsGap.not_mem_p {gap : List Char} (h : IsGap gap) : 'p' ∉ '√' :: (gap ++ ['(']) := by
  intro hp
  have hp : 'p' ∈ gap := by simpa using hp
  exact absurd (h 'p' hp) (by decide)

/-- No word that can end at a root is spelled with the sign for `pi` before it. -/
theorem innerSpellings_root {token : String} (hmem : token ∈ forbidden) {w gap : List Char}
    (hw : token.toList = w ++ ['s']) (hgap : IsGap gap) :
    innerSpellings (w ++ '√' :: (gap ++ ['('])) = [w ++ '√' :: (gap ++ ['('])] := by
  have hplural : ∀ token ∈ forbidden, token.toList.getLast? = some 's' →
      token.toList.dropLast ∈ ["subproces".toList, "builtin".toList, "global".toList,
        "local".toList] := by decide
  have hroot := spellings_eq_self hgap.not_mem_p
  have hcases := hplural token hmem (by rw [hw, List.getLast?_concat])
  rw [hw, List.dropLast_concat] at hcases
  simp only [List.mem_cons, List.not_mem_nil, or_false] at hcases
  obtain rfl | rfl | rfl | rfl := hcases <;> simp [innerSpellings, spellings, hroot]

theorem endsAtRoot_flatMap_plainSign {token : String} (hmem : token ∈ forbidden)
    (s : List Char) :
    EndsAtRoot token.toList (s.flatMap plainSign) ↔ EndsAtRoot token.toList s := by
  refine exists_congr fun w => exists_congr fun gap => ?_
  refine and_congr_right fun hw => and_congr_right fun hgap => ?_
  rw [infix_flatMap_plainSign s (by simp)
    ((isWord_of_mem_forbidden token hmem).not_sign_root hw hgap), innerSpellings_root hmem hw hgap]
  simp

theorem innerSpellings_of_mem_forbidden : ∀ token ∈ forbidden,
    innerSpellings token.toList = [token.toList] ∨
      token = "compile" ∧
        innerSpellings token.toList = [token.toList, "com".toList ++ 'π' :: "le".toList] ∨
      token = "import" ∧ innerSpellings token.toList = [token.toList, 'π' :: "mport".toList] := by
  decide

theorem infix_lower_pi_iff {u v s : List Char} :
    u ++ 'π' :: v <:+: lower s ↔
      ∃ x y, s = x ++ 'π' :: y ∧ u <:+ lower x ∧ v <+: lower y := by
  have hpi : IsCaseless 'π' := IsOutsideLetters.isCaseless (by decide)
  constructor
  · rintro ⟨a, b, hab⟩
    obtain ⟨x, y, rfl, hx, hy⟩ := exists_of_lower_eq hpi (s := s) (u := a ++ u) (w := v ++ b)
      (by rw [← hab]; simp)
    exact ⟨x, y, rfl, ⟨a, hx.symm⟩, ⟨b, hy.symm⟩⟩
  · rintro ⟨x, y, rfl, ⟨a, ha⟩, ⟨b, hb⟩⟩
    refine ⟨a, b, ?_⟩
    have hy : lower ('π' :: y) = 'π' :: lower y := by
      rw [lower, List.flatMap_cons, hpi.lowerChar_eq]
      rfl
    rw [lower_append, ← ha, hy, ← hb]
    simp

/-- A forbidden word is completed by a sign for `pi` or by the root after its other letters. -/
inductive Completes : List Char → String → Prop
  | compiled {x y : List Char} (before : "com".toList <:+ lower x)
      (after : "le".toList <+: lower y) :
      Completes (x ++ 'π' :: y) "compile"
  | imported {x y : List Char} (after : "mport".toList <+: lower y) :
      Completes (x ++ 'π' :: y) "import"
  | rooted {x gap y w : List Char} {token : String} (ends : token.toList = w ++ ['s'])
      (before : w <:+ lower x) (blank : IsGap gap) :
      Completes (x ++ '√' :: (gap ++ '(' :: y)) token

theorem completes_iff {s : List Char} {token : String} (hmem : token ∈ forbidden)
    (hharmless : ¬ token.toList <:+: lower s) :
    Completes s token ↔
      (∃ r ∈ innerSpellings token.toList, r <:+: lower s) ∨ EndsAtRoot token.toList (lower s) := by
  constructor
  · intro h
    cases h with
    | compiled before after =>
      exact .inl ⟨"com".toList ++ 'π' :: "le".toList, by decide,
        infix_lower_pi_iff.mpr ⟨_, _, rfl, before, after⟩⟩
    | imported after =>
      exact .inl ⟨'π' :: "mport".toList, by decide,
        infix_lower_pi_iff (u := []) |>.mpr ⟨_, _, rfl, List.nil_suffix, after⟩⟩
    | rooted ends before blank =>
      exact .inr (endsAtRoot_lower_iff.mpr ⟨_, _, _, _, ends, blank, rfl, before⟩)
  · rintro (⟨r, hr, hpart⟩ | hroot)
    · obtain h | ⟨rfl, h⟩ | ⟨rfl, h⟩ := innerSpellings_of_mem_forbidden token hmem
      all_goals
        rw [h] at hr
        simp only [List.mem_cons, List.not_mem_nil, or_false] at hr
      · exact absurd (hr ▸ hpart) hharmless
      · obtain rfl | rfl := hr
        · exact absurd hpart hharmless
        · obtain ⟨x, y, rfl, before, after⟩ := infix_lower_pi_iff.mp hpart
          exact .compiled before after
      · obtain rfl | rfl := hr
        · exact absurd hpart hharmless
        · obtain ⟨x, y, rfl, -, after⟩ := infix_lower_pi_iff (u := []) |>.mp hpart
          exact .imported after
    · obtain ⟨w, gap, x, y, ends, blank, rfl, before⟩ := endsAtRoot_lower_iff.mp hroot
      exact .rooted ends before blank

/-- Where forbidden words stand in the plain form of an accepted text. -/
theorem infix_lower_plain_iff {limits : Settings} {text t : List Char}
    (h : plain limits text = .ok t) :
    ∀ token ∈ forbidden, token.toList <:+: lower t ↔ Completes (trim text) token := by
  intro token hmem
  obtain ⟨rfl, haccept⟩ := (plain_ensures limits text).of_eq_ok h
  have hword := isWord_of_mem_forbidden token hmem
  rw [infix_lower_inPlainSigns hword.nonempty hword.not_spacing, hword.infix_lower_nameRoots,
    ← infix_lower_lowerRaised hword.not_sign, hword.endsAtRoot_lowerRaised,
    lower_flatMap_plainSign, infix_flatMap_plainSign _ hword.nonempty hword.not_sign,
    endsAtRoot_flatMap_plainSign hmem, ← completes_iff hmem (haccept.harmless token hmem)]

theorem plain_compile : plain {} "comπle(x)".toList = .ok "compile(x)".toList := rfl

theorem infix_lower_plain_iff_compile :
    plain {} "comπle(x)".toList = .ok "compile(x)".toList ∧
      ("compile".toList <:+: lower "compile(x)".toList ↔
        Completes (trim "comπle(x)".toList) "compile") :=
  ⟨plain_compile, infix_lower_plain_iff plain_compile "compile" (by decide)⟩

/-- Not every plain form is free of forbidden words. -/
theorem exists_plain_forbidden :
    ∃ t, plain {} "comπle(x)".toList = .ok t ∧ ∃ token ∈ forbidden, token.toList <:+: lower t :=
  ⟨_, plain_compile, "compile", by decide, [], "(x)".toList, by decide⟩

end Simultaneous.Formula
