import Simultaneous.Formula.Token
import Simultaneous.Proofs.Formula.NameBoundaries
import Simultaneous.Proofs.Formula.NormalForm
import Simultaneous.Proofs.Formula.NumberBoundaries

/-!
What the plain forms of `π` and of superscripts stand beside. The sign becomes the letters `pi` and
a run of superscripts a power, whatever their neighbours are: a name in front of the sign, a word
behind it and a number behind the run grow together with them.
-/

namespace Simultaneous.Formula

open Text

/-- A word character that is no superscript. -/
def isUnraised (c : Char) : Bool := isWord c && (raised? c).isNone

section

variable {c : Char} {s run : List Char}

theorem lowerRaised_append (inRun : Bool) (s t : List Char) : lowerRaised inRun (s ++ t) =
    lowerRaised inRun s ++ lowerRaised (s.foldl (fun _ c => (raised? c).isSome) inRun) t := by
  induction s generalizing inRun with
  | nil => rfl
  | cons c s ih =>
    rw [List.cons_append, lowerRaised, lowerRaised]
    cases hc : raised? c with
    | none => simp [hc, ih]
    | some d => cases inRun <;> simp [hc, ih]

theorem raised?_of_not_applies {before : Bool} (h : ¬ Applies RaisedRule before (c :: s)) :
    raised? c = none := by
  by_contra hc
  exact h (applies_raisedRule (Option.isSome_iff_ne_none.mpr hc))

theorem mem_typographic_of_changed (h : plainSign c ≠ [c]) : c ∈ typographic :=
  by_contra fun hc => h (plainSign_eq hc)

theorem mem_typographic_of_raised (h : (raised? c).isSome) : c ∈ typographic := by
  by_contra hc
  simp [raised?_eq_none hc] at h

theorem isUnraised_eq_false (hc : (raised? c).isSome) : isUnraised c = false := by
  rw [isUnraised, Option.isNone_eq_false_iff.mpr hc, Bool.and_false]

/-- Superscripts stand for digits and the minus sign. -/
theorem forall_mem_filterMap_raised? (run : List Char) :
    ∀ d ∈ run.filterMap raised?, isDigit d = true ∨ d = '-' := by
  intro d hd
  obtain ⟨c, -, hc⟩ := List.mem_filterMap.mp hd
  unfold raised? at hc
  split at hc <;> cases hc <;> decide

theorem endsInName_plainSign (s : List Char) (b : Bool) :
    endsInName isUnraised b (s.flatMap plainSign) = endsInName isUnraised b s := by
  refine (follows_plainSign.rewrites false s).foldl_eq (fun hr b => ?_) (fun _ _ => rfl) b
  obtain @⟨_, c, _, changed⟩ := hr
  have hall : ∀ c ∈ typographic, ∀ b,
      endsInName isUnraised b (plainSign c) = endsInName isUnraised b [c] :=
    List.all_iff_forall_prop.mp (by decide +kernel)
  exact hall c (mem_typographic_of_changed changed) b

theorem endsInName_lowerRaised (s : List Char) (b : Bool) :
    endsInName isWord b (lowerRaised false s) = endsInName isUnraised b s := by
  refine (follows_lowerRaised.rewrites false s).foldl_eq (@fun _ run _ _ hr b => ?_)
    (fun hnot b => ?_) b
  · obtain ⟨nonempty, raised, -⟩ := hr
    -- neither a run nor the power that it becomes is part of a name
    have hpower : endsInName isWord b ('*' :: '*' :: run.filterMap raised?) = false := by
      refine endsInName_eq_false (s := '*' :: run.filterMap raised?)
        (List.forall_mem_cons.mpr ⟨.inr (by decide), fun d hd => ?_⟩)
      refine (forall_mem_filterMap_raised? run d hd).imp_right ?_
      rintro rfl
      decide
    have hrun : endsInName isUnraised b run = false := by
      obtain rfl | ⟨run, c, rfl⟩ := List.eq_nil_or_concat run
      · exact absurd rfl nonempty
      · have hc := raised c (by simp)
        have hall : ∀ c ∈ typographic, isDigit c = false :=
          List.all_iff_forall_prop.mp (by decide)
        simp [hall c (mem_typographic_of_raised hc), isUnraised_eq_false hc]
    exact hpower.trans hrun.symm
  · simp [isUnraised, raised?_of_not_applies hnot]

/-- The root sign, the blanks behind it and the bracket behind them. -/
def isRootPart (c : Char) : Bool := isBlank c || c == '√' || c == '('

theorem isRootPart_of_mem (h : c ∈ typographic) : isRootPart c = false := by
  have hall : ∀ c ∈ typographic, isRootPart c = false := List.all_iff_forall_prop.mp (by decide)
  exact hall c h

/-- What is written for signs and superscripts is no root before a bracket. -/
theorem prefix_root_iff {rule : Rule} {before : Bool} {s o gap : List Char} (blank : IsGap gap)
    (hrule : ∀ {before u v r}, rule before u v r → ∃ a w a' w', u = a :: w ∧ v = a' :: w' ∧
      isRootPart a = false ∧ isRootPart a' = false) (h : Rewrites rule before s o) :
    '√' :: (gap ++ ['(']) <+: o ↔ '√' :: (gap ++ ['(']) <+: s := by
  have hmem : ∀ c, isRootPart c = false → c ∉ '√' :: (gap ++ ['(']) := by
    intro c hc hroot
    obtain ⟨⟨hblank, hsign⟩, hopen⟩ : (isBlank c = false ∧ c ≠ '√') ∧ c ≠ '(' := by
      simpa [isRootPart] using hc
    simp only [List.mem_cons, List.mem_append, List.not_mem_nil, or_false, hsign, hopen, false_or]
      at hroot
    simp [blank c hroot] at hblank
  refine h.prefix_iff fun hr => ?_
  obtain ⟨a, w, a', w', hu, hv, ha, ha'⟩ := hrule hr
  exact ⟨a, w, a', w', hu, hv, hmem a ha, hmem a' ha'⟩

/-- What the plain form of a sign begins with is of the kind of the sign. -/
theorem exists_head_plainSign (h : c ∈ typographic) :
    ∃ a w, plainSign c = a :: w ∧ isUnraised a = isUnraised c ∧ isRootPart a = false ∧
      (raised? a).isSome = (raised? c).isSome := by
  have hall : ∀ c ∈ typographic,
      (plainSign c).head?.map (fun a => (isUnraised a, isRootPart a, (raised? a).isSome)) =
        some (isUnraised c, false, (raised? c).isSome) :=
    List.all_iff_forall_prop.mp (by decide +kernel)
  obtain ⟨a, ha, heq⟩ := Option.map_eq_some_iff.mp (hall c h)
  obtain ⟨w, hw⟩ := List.head?_eq_some_iff.mp ha
  obtain ⟨hword, hroot, hraised⟩ : _ ∧ _ ∧ _ := by simpa only [Prod.mk.injEq] using heq
  exact ⟨a, w, hw, hword, hroot, hraised⟩

theorem beginsWord_plainSign (s : List Char) :
    BeginsWord isUnraised (s.flatMap plainSign) ↔ BeginsWord isUnraised s := by
  have h := follows_plainSign.rewrites false s
  refine or_congr (h.begins_iff (fun hr => ?_) fun _ => rfl)
    (exists_congr fun gap => and_congr_right fun blank => prefix_root_iff blank (fun hr => ?_) h)
  · obtain ⟨changed⟩ := hr
    obtain ⟨a, w, hw, hword, -⟩ := exists_head_plainSign (mem_typographic_of_changed changed)
    simp [hw, hword]
  · obtain ⟨changed⟩ := hr
    have hc := mem_typographic_of_changed changed
    obtain ⟨a, w, hw, -, hroot, -⟩ := exists_head_plainSign hc
    exact ⟨_, [], a, w, rfl, hw, isRootPart_of_mem hc, hroot⟩

theorem beginsWord_lowerRaised (s : List Char) :
    BeginsWord isWord (lowerRaised false s) ↔ BeginsWord isUnraised s := by
  have h := follows_lowerRaised.rewrites false s
  have hrun : ∀ {before u v r}, RaisedRule before u v r →
      ∃ c w w', u = c :: w ∧ v = '*' :: w' ∧ (raised? c).isSome := by
    rintro _ _ _ _ ⟨nonempty, raised, -⟩
    obtain ⟨c, w, rfl⟩ := List.exists_cons_of_ne_nil nonempty
    exact ⟨c, w, _, rfl, rfl, raised c List.mem_cons_self⟩
  refine or_congr (h.begins_iff (fun hr => ?_) fun hnot => ?_)
    (exists_congr fun gap => and_congr_right fun blank => prefix_root_iff blank (fun hr => ?_) h)
  · obtain ⟨c, w, w', rfl, rfl, hc⟩ := hrun hr
    simp [isUnraised_eq_false hc, (by decide : isWord '*' = false)]
  · simp [isUnraised, raised?_of_not_applies hnot]
  · obtain ⟨c, w, w', rfl, rfl, hc⟩ := hrun hr
    exact ⟨c, w, '*', w', rfl, rfl, isRootPart_of_mem (mem_typographic_of_raised hc), by decide⟩

theorem continuesNumber_lowerRaised (s : List Char) :
    ContinuesNumber (lowerRaised false s) ↔ ContinuesNumber s := by
  refine continuesNumber_iff keepsExponents_raisedRule (fun hr a ha => ?_)
    (follows_lowerRaised.rewrites false s)
  obtain ⟨nonempty, raised, -⟩ := hr
  obtain ⟨c, w, rfl⟩ := List.exists_cons_of_ne_nil nonempty
  obtain rfl | rfl : a = c ∨ a = '*' := by simpa using ha
  · rintro rfl
    exact absurd (raised '.' List.mem_cons_self) (by decide)
  · decide

/-- Neighbours of a run of superscripts are none in plain characters either. -/
theorem foldl_raised_plainSign (s : List Char) :
    (s.flatMap plainSign).foldl (fun _ c => (raised? c).isSome) false =
      s.foldl (fun _ c => (raised? c).isSome) false := by
  refine (follows_plainSign.rewrites false s).foldl_eq (fun hr b => ?_) (fun _ _ => rfl) false
  obtain ⟨changed⟩ := hr
  have hall : ∀ c ∈ typographic, ∀ b,
      (plainSign c).foldl (fun _ c => (raised? c).isSome) b = (raised? c).isSome :=
    List.all_iff_forall_prop.mp (by decide)
  exact hall _ (mem_typographic_of_changed changed) b

theorem begins_raised_plainSign (s : List Char) :
    Begins (fun c => (raised? c).isSome) (s.flatMap plainSign) ↔
      Begins (fun c => (raised? c).isSome) s := by
  refine (follows_plainSign.rewrites false s).begins_iff (fun hr => ?_) fun _ => rfl
  obtain ⟨changed⟩ := hr
  obtain ⟨a, w, hw, -, -, hraised⟩ := exists_head_plainSign (mem_typographic_of_changed changed)
  simp [hw, hraised]

theorem flatMap_plainSign_run (h : ∀ c ∈ run, (raised? c).isSome) :
    run.flatMap plainSign = run := by
  induction run with
  | nil => rfl
  | cons c run ih =>
    obtain ⟨hc, hrun⟩ := List.forall_mem_cons.mp h
    have hall : ∀ c ∈ typographic, (raised? c).isSome → plainSign c = [c] :=
      List.all_iff_forall_prop.mp (by decide)
    rw [List.flatMap_cons, ih hrun, hall c (mem_typographic_of_raised hc) hc]
    rfl

theorem inPlainSigns_pi (u v : List Char) : inPlainSigns (u ++ 'π' :: v) =
    spellOut (lowerRaised false (u.flatMap plainSign) ++
      (['p', 'i'] ++ lowerRaised false (v.flatMap plainSign))) := by
  rw [inPlainSigns_eq_spellOut, List.flatMap_append, lowerRaised_append]
  rfl

theorem inPlainSigns_run {u v : List Char} (hrun : run ≠ [])
    (hraised : ∀ c ∈ run, (raised? c).isSome) (hu : ∀ c ∈ u.getLast?, raised? c = none)
    (hv : ∀ c ∈ v.head?, raised? c = none) :
    inPlainSigns (u ++ (run ++ v)) = spellOut (lowerRaised false (u.flatMap plainSign) ++
      ('*' :: '*' :: run.filterMap raised? ++ lowerRaised false (v.flatMap plainSign))) := by
  have hout : (u.flatMap plainSign).foldl (fun _ c => (raised? c).isSome) false = false := by
    rw [foldl_raised_plainSign, Bool.eq_false_iff]
    intro hlast
    obtain ⟨c, hc, hc'⟩ := (foldl_last_iff _ u).mp hlast
    simp [hu c hc] at hc'
  have hends : ∀ a ∈ (v.flatMap plainSign).head?, raised? a = none := by
    intro a ha
    by_contra hne
    obtain ⟨c, hc, hc'⟩ := (begins_raised_plainSign v).mp ⟨a, ha, Option.isSome_iff_ne_none.mpr hne⟩
    simp [hv c hc] at hc'
  rw [inPlainSigns_eq_spellOut, List.flatMap_append, List.flatMap_append,
    flatMap_plainSign_run hraised, lowerRaised_append, hout,
    follows_lowerRaised.eq_of_rewrites
      (.replace (.run hrun hraised hends) (follows_lowerRaised.rewrites (endsInWord false run) _))]

end

/-- The plain form up to `π` ends in the letters `pi`, and the plain form of the text goes on from
there. In front of the letters stands a word just when a name ends in front of the sign, and behind
them when a word or a root begins behind it. Likewise a run of superscripts becomes a power of just
its digits and minus signs, which a number goes on behind when it does so behind the run. -/
theorem plain_boundaries {limits : Settings} {text t : List Char} (h : plain limits text = .ok t) :
    (∀ u v, trim text = u ++ 'π' :: v →
      ∃ x y, inPlainSigns (u ++ ['π']) = x ++ ['p', 'i'] ∧ t = x ++ (['p', 'i'] ++ y) ∧
        ((∃ c ∈ x.getLast?, isWord c = true) ↔ ∃ w c digits, u = w ++ c :: digits ∧
          isUnraised c = true ∧ isDigit c = false ∧ ∀ d ∈ digits, isDigit d = true) ∧
        ((∃ c ∈ y.head?, isWord c = true) ↔ BeginsWord isUnraised v)) ∧
    ∀ u run v, trim text = u ++ (run ++ v) → run ≠ [] → (∀ c ∈ run, (raised? c).isSome) →
      (∀ c ∈ u.getLast?, raised? c = none) → (∀ c ∈ v.head?, raised? c = none) →
      ∃ x y, inPlainSigns (u ++ run) = x ++ '*' :: '*' :: run.filterMap raised? ∧
        t = x ++ ('*' :: '*' :: run.filterMap raised? ++ y) ∧
        (ContinuesNumber y ↔ ContinuesNumber (v.flatMap plainSign)) := by
  have ht := ((plain_ensures limits text).of_eq_ok h).1
  rw [ht]
  generalize trim text = s
  constructor
  · rintro u v rfl
    obtain ⟨x, hx, hpasses⟩ := carries_pi (lowerRaised false (u.flatMap plainSign))
    obtain ⟨y₀, hstart, -, hnil⟩ := hpasses []
    obtain ⟨y, hall, hy, -⟩ := hpasses (lowerRaised false (v.flatMap plainSign))
    refine ⟨x, y, ?_, ?_, ?_, ?_⟩
    · rw [inPlainSigns_pi, List.flatMap_nil, lowerRaised, hstart, hnil rfl, List.append_nil]
    · rw [inPlainSigns_pi, hall]
    · calc (∃ c ∈ x.getLast?, isWord c = true) ↔ endsInWord false x = true :=
            (foldl_last_iff isWord x).symm
        _ ↔ endsInName isWord false (lowerRaised false (u.flatMap plainSign)) = true := hx
        _ ↔ _ := by rw [endsInName_lowerRaised, endsInName_plainSign, endsInName_iff]
    · exact hy.trans ((beginsWord_lowerRaised _).trans (beginsWord_plainSign v))
  · rintro u run v rfl hrun hraised hu hv
    obtain ⟨x, -, hpasses⟩ :=
      carries_power (forall_mem_filterMap_raised? run) (lowerRaised false (u.flatMap plainSign))
    obtain ⟨y₀, hstart, -, hnil⟩ := hpasses []
    obtain ⟨y, hall, hy, -⟩ := hpasses (lowerRaised false (v.flatMap plainSign))
    refine ⟨x, y, ?_, ?_, hy.trans (continuesNumber_lowerRaised _)⟩
    · have hplain := inPlainSigns_run (v := []) hrun hraised hu (by simp)
      rw [List.append_nil] at hplain
      rw [hplain, List.flatMap_nil, lowerRaised, hstart, hnil rfl, List.append_nil]
    · rw [inPlainSigns_run hrun hraised hu hv, hall]

theorem plain_circle : plain {} "πr²3".toList = .ok "pir**23".toList := rfl

theorem plain_boundaries_circle : plain {} "πr²3".toList = .ok "pir**23".toList ∧
    (∃ x y, inPlainSigns "π".toList = x ++ ['p', 'i'] ∧
      "pir**23".toList = x ++ (['p', 'i'] ++ y) ∧
      ((∃ c ∈ y.head?, isWord c = true) ↔ BeginsWord isUnraised "r²3".toList)) ∧
    ∃ x y, inPlainSigns "πr²".toList = x ++ "**2".toList ∧
      "pir**23".toList = x ++ ("**2".toList ++ y) ∧
      (ContinuesNumber y ↔ ContinuesNumber "3".toList) := by
  obtain ⟨hpi, hrun⟩ := plain_boundaries plain_circle
  obtain ⟨x, y, hx, hy, -, hword⟩ := hpi [] "r²3".toList rfl
  exact ⟨plain_circle, ⟨x, y, hx, hy, hword⟩,
    hrun "πr".toList ['²'] "3".toList rfl (List.cons_ne_nil _ _)
      (List.forall_mem_singleton.mpr rfl) (by rintro c ⟨⟩; rfl) (by rintro c ⟨⟩; rfl)⟩

/-- Not every `π` is a name of its own in the plain form, and not every run of superscripts a
number. -/
theorem exists_plain_merged :
    (∃ t, plain {} "πr²".toList = .ok t ∧ Token.name "pi" ∉ Token.scan t) ∧
      ∃ t, plain {} "x²3".toList = .ok t ∧ Token.number "2" ∉ Token.scan t :=
  ⟨⟨_, rfl, by decide⟩, _, rfl, by decide⟩

end Simultaneous.Formula
