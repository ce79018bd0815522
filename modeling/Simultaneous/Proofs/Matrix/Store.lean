import Simultaneous.Proofs.Matrix.Calculator
import Simultaneous.Proofs.Matrix.Directory

/-!
What commands do to named matrices. A command that changes an object where it is changes no other
one; every other command leaves all objects as they are. What a name refers to is a table of numbers
at all times.
-/

namespace Simultaneous

theorem Literal.pos_of_size? {v : Literal} {n : Nat} (h : v.size? = some n) : 0 < n := by
  unfold Literal.size? at h
  split at h
  · split at h
    · cases h
      omega
    · cases h
  · cases h

namespace Matrix

open Attempt

section

variable {m : Matrix Float} {r c : Nat}

theorem replicate_wellFormed (hr : 0 < r) (hc : 0 < c) (x : Float) :
    (replicate r c x).WellFormed := by
  refine ⟨hr, hc, List.length_replicate, fun row hrow => ?_⟩
  rw [List.eq_of_mem_replicate hrow]
  exact List.length_replicate

theorem pos_of_sizes {rows cols : Literal} (h : sizes rows cols = .ok (r, c)) : 0 < r ∧ 0 < c := by
  rw [sizes] at h
  split at h
  next hrows hcols =>
    cases h
    exact ⟨Literal.pos_of_size? hrows, Literal.pos_of_size? hcols⟩
  · cases h

theorem isGrid_drawRows (width : Nat) (cell : Float → Float) (n : Nat) (t : Random.Twister) :
    IsGrid (drawRows width cell n t).1 n width := by
  induction n generalizing t with
  | zero => exact ⟨rfl, List.forall_mem_nil _⟩
  | succ n ih =>
    obtain ⟨hlength, hrows⟩ := ih (t.units width).2
    refine ⟨congrArg (· + 1) hlength, List.forall_mem_cons.mpr ⟨?_, hrows⟩⟩
    rw [List.length_map, Random.Twister.length_units]

/-- A matrix made of data is well-formed. -/
theorem Source.wellFormed {source : Source} (h : source.matrix = .ok m) : m.WellFormed := by
  cases source with
  | size rows cols fill =>
    obtain ⟨⟨r, c⟩, hsizes, h⟩ := bind_eq_ok.mp h
    obtain ⟨x, -, h⟩ := bind_eq_ok.mp h
    cases h
    obtain ⟨hr, hc⟩ := pos_of_sizes hsizes
    exact replicate_wellFormed hr hc x
  | identity n =>
    obtain ⟨⟨r, c⟩, hsizes, h⟩ := bind_eq_ok.mp h
    obtain ⟨hr, -⟩ := pos_of_sizes hsizes
    have hidentity : Matrix.identity r = .ok m := h
    rw [Matrix.identity, filled_eq_ok hr hr, ok_bind] at hidentity
    cases hidentity
    exact ((isGrid_diagonal r).hasShape hr hr).toWellFormed
  | values rows => exact (ofLiteral_ensures rows).of_eq_ok h
  | column entries =>
    obtain ⟨items, -, h⟩ := bind_eq_ok.mp h
    exact (ofLiteral_ensures _).of_eq_ok h
  | text s =>
    cases s with
    | str s => exact (parse_ensures s).of_eq_ok h
    | _ => cases h
  | random size low high seed =>
    have hrandom : (Matrix.random size low high (.ofSeed seed)).1 = .ok m := h
    rw [Matrix.random] at hrandom
    split at hrandom
    · cases hrandom
    next n _ hsizes =>
      cases hrandom
      obtain ⟨hn, -⟩ := pos_of_sizes hsizes
      exact ((isGrid_drawRows n _ n _).hasShape hn hn).toWellFormed

/-- An operation on well-formed matrices gives a well-formed one, whatever counts as zero. -/
theorem operate_wellFormed {tolerance : Float} {op : Operation} {a b : Option (Matrix Float)}
    (ha : ∀ x ∈ a, x.WellFormed) (hb : ∀ y ∈ b, y.WellFormed)
    (h : operate tolerance op a b = .ok m) : m.WellFormed := by
  obtain ⟨x, hx, h⟩ := bind_eq_ok.mp h
  have hx := (require_ensures ha).of_eq_ok hx
  have hboth : ∀ f : Matrix Float → Attempt (Matrix Float),
      (∀ y : Matrix Float, y.WellFormed → Ensures WellFormed IsFault (f y)) →
      require b >>= f = .ok m → m.WellFormed := fun f hf h =>
    ((require_ensures hb).bind hf).of_eq_ok h
  cases op with
  | inv =>
    by_cases hsquare : x.rows = x.cols
    · exact ((inv_ensures tolerance ⟨hx, rfl, hsquare.symm⟩).of_eq_ok h).toWellFormed
    · rw [show x.inv tolerance = _ from if_pos hsquare] at h
      cases h
  | add => exact hboth _ (fun y hy => combine_ensures hx hy _) h
  | sub => exact hboth _ (fun y hy => combine_ensures hx hy _) h
  | mul => exact hboth _ (fun y hy => mul_ensures hx hy) h

end

namespace Directory

variable {d : Directory (Matrix Float)} {m : Matrix Float}

theorem wellFormed_of_operand (hd : ∀ m ∈ d.objects, m.WellFormed) {a : Operand}
    {o : Option (Nat × Matrix Float)} (h : d.operand a = .ok o) :
    ∀ x ∈ o.map (·.2), x.WellFormed := by
  cases a with
  | none =>
    cases h
    exact fun x hx => nomatch hx
  | some name =>
    rw [operand] at h
    split at h
    next p hp =>
      cases h
      rintro x hx
      obtain rfl : p.2 = x := Option.some.inj hx
      obtain ⟨-, hobject⟩ := find?_eq_some_iff.mp hp
      exact hd _ (List.mem_of_getElem? hobject)
    · cases h

theorem wellFormed_of_result (hd : ∀ m ∈ d.objects, m.WellFormed) {settings : Settings}
    {op : Operation} {a b : Operand} (h : d.result settings op a b = .ok m) : m.WellFormed := by
  obtain ⟨x, hx, h⟩ := bind_eq_ok.mp h
  have hx := wellFormed_of_operand hd hx
  split at h
  · obtain ⟨y, hy, h⟩ := bind_eq_ok.mp h
    cases hy
    exact operate_wellFormed (b := none) hx (fun y hy => nomatch hy) h
  · obtain ⟨y, hy, h⟩ := bind_eq_ok.mp h
    exact operate_wellFormed hx (wellFormed_of_operand hd hy) h

end Directory

namespace Store

variable {s : Store} {target : Option String}

theorem getElem?_of_item {β : Type} {beyond : Breakage} {xs : List β} {i : Literal} {n : Nat}
    {x : β} (h : item beyond xs i = .ok (n, x)) : xs[n]? = some x := by
  obtain ⟨k, -, h⟩ := bind_eq_ok.mp h
  split at h
  · cases h
  · split at h
    · cases h
    next hget =>
      cases h
      exact hget

theorem lt_of_place {m : Matrix Float} {i j : Literal} {beyond : Breakage} {r c : Nat} {x : Float}
    (h : place m i j beyond = .ok (r, c, x)) : r < m.cells.length := by
  obtain ⟨⟨k, row⟩, hrow, h⟩ := bind_eq_ok.mp h
  obtain ⟨⟨d, y⟩, -, h⟩ := bind_eq_ok.mp h
  cases h
  exact (List.getElem?_eq_some_iff.mp (getElem?_of_item hrow)).1

/-- Every object is well-formed, and every name refers to one. -/
structure Sound (s : Store) : Prop where
  wellFormed : ∀ o ∈ s.objects, o.matrix.WellFormed
  isClosed : s.IsClosed

theorem sound_empty : Sound {} := ⟨List.forall_mem_nil _, fun _ _ h => nomatch h⟩

/-- What an operand that exists refers to. -/
theorem exists_of_demand {ability : String} {a : Operand} {n : Nat} {o : Object}
    (h : s.demand ability a = .ok (n, o)) :
    ∃ name, a = some name ∧ s.number? name = some n ∧ s.objects[n]? = some o := by
  obtain ⟨name, rfl, hfind⟩ := Directory.demand_eq_ok_iff.mp h
  exact ⟨name, rfl, Directory.find?_eq_some_iff.mp hfind⟩

theorem Sound.wellFormed_of_demand (hs : s.Sound) {ability : String} {a : Operand} {n : Nat}
    {o : Object} (h : s.demand ability a = .ok (n, o)) : o.matrix.WellFormed := by
  obtain ⟨-, -, -, hobject⟩ := exists_of_demand h
  exact hs.wellFormed o (List.mem_of_getElem? hobject)

/-- What a command does. It is refused; or it keeps a new object; or it changes the one object that
it names, all of it or, of a rounding that fails, a part. -/
inductive Effect (s : Store) (target : Option String) :
    Command → Store × Attempt (Matrix Float) → Prop
  | refused {c : Command} {f : Failure} : Effect s target c (s, .error f)
  | kept {c : Command} {o : Object} {next : Nat} (fresh : c.changed? = none)
      (wellFormed : o.matrix.WellFormed) :
      Effect s target c ({ s with toDirectory := s.keep target o, next }, .ok o.matrix)
  | rounded {a : Operand} {precision : Literal} {n : Nat} {o : Object} {m : Matrix Float}
      {origins : List (List Nat)} {next : Nat} (found : s.demand "to_fixed" a = .ok (n, o))
      (all : o.matrix.replaceAll (rounding precision) = (m, none)) :
      Effect s target (.toFixed a precision)
        ({ s with toDirectory := (s.replace n ⟨m, origins⟩).bind target n, next }, .ok m)
  | roundedPart {a : Operand} {precision : Literal} {n : Nat} {o : Object} {m : Matrix Float}
      {origins : List (List Nat)} {next : Nat} {f : Failure}
      (found : s.demand "to_fixed" a = .ok (n, o))
      (part : o.matrix.replaceAll (rounding precision) = (m, some f)) :
      Effect s target (.toFixed a precision)
        ({ s with toDirectory := s.replace n ⟨m, origins⟩, next }, .error f)
  | set {a : Operand} {i j value : Literal} {n r c : Nat} {x : Float} {o : Object}
      {origins : List (List Nat)} {next : Nat} (found : s.demand "set" a = .ok (n, o)) :
      Effect s target (.set a i j value)
        ({ s with toDirectory := s.replace n ⟨o.matrix.setCell r c x, origins⟩, next },
          .ok (o.matrix.setCell r c x))

theorem deliver_effect {c : Command} (fresh : c.changed? = none) {r : Attempt (Matrix Float)}
    (hr : ∀ m, r = .ok m → m.WellFormed) : Effect s target c (s.deliver target r) := by
  cases r with
  | error f => exact .refused
  | ok m => exact .kept fresh (hr m rfl)

theorem apply_effect (hs : s.Sound) (settings : Settings) (target : Option String) (c : Command) :
    Effect s target c (s.apply settings target c) := by
  have hmatrices : ∀ m ∈ s.matrices.objects, m.WellFormed := by
    intro m hm
    obtain ⟨o, ho, rfl⟩ := List.mem_map.mp hm
    exact hs.wellFormed o ho
  cases c with
  | build source =>
    rw [apply]
    split
    · exact .refused
    next m hm => exact .kept rfl (Source.wellFormed hm)
  | copy a =>
    rw [apply]
    split
    · exact .refused
    next n o hfound => exact .kept rfl (hs.wellFormed_of_demand hfound)
  | operate op a b =>
    exact deliver_effect rfl fun m hm => Directory.wellFormed_of_result hmatrices hm
  | combine op a b =>
    rw [apply]
    split
    · exact .refused
    · exact .refused
    · exact deliver_effect rfl fun m hm => Directory.wellFormed_of_result hmatrices hm
  | toFixed a precision =>
    rw [apply]
    split
    · exact .refused
    next n o hfound =>
      cases hround : o.matrix.replaceAll (rounding precision) with
      | mk m e =>
        simp only [fix, hround]
        cases e with
        | none => exact .rounded hfound hround
        | some f => exact .roundedPart hfound hround
  | set a i j value =>
    rw [apply]
    split
    · exact .refused
    next n o hfound =>
      rw [write]
      split
      · exact .refused
      split
      · exact .refused
      · exact .set hfound

/-- The object that a name refers to once a command has put its result under it: rounding hands on
its operand, setting hands on nothing, and every other result is a new object. -/
def handedOn (s : Store) (name : String) : Command → Option Nat
  | .toFixed a _ => a.bind s.number?
  | .set .. => s.number? name
  | _ => some s.objects.length

namespace Effect

variable {c : Command} {out : Store × Attempt (Matrix Float)}

theorem handedOn_of_fresh (fresh : c.changed? = none) (name : String) :
    s.handedOn name c = some s.objects.length := by
  cases c with
  | toFixed a precision => cases fresh
  | set a i j value => cases fresh
  | _ => rfl

theorem wellFormed_replace (hs : s.Sound) {m : Matrix Float} (hm : m.WellFormed) (n : Nat)
    (origins : List (List Nat)) : ∀ o ∈ (s.replace n ⟨m, origins⟩).objects, o.matrix.WellFormed := by
  intro o ho
  obtain ho | rfl := List.mem_or_eq_of_mem_set ho
  · exact hs.wellFormed o ho
  · exact hm

theorem hasShape_of_rounding (hs : s.Sound) {a : Operand} {precision : Literal} {n : Nat}
    {o : Object} {m : Matrix Float} {e : Option Failure}
    (found : s.demand "to_fixed" a = .ok (n, o))
    (hm : o.matrix.replaceAll (rounding precision) = (m, e)) : m.HasShape o.matrix.rows
      o.matrix.cols := by
  have hshape := replaceAll_hasShape (f := rounding precision)
    ⟨hs.wellFormed_of_demand found, rfl, rfl⟩
  rwa [hm] at hshape

theorem sound (hs : s.Sound) (h : Effect s target c out) : out.1.Sound := by
  cases h with
  | refused => exact hs
  | kept fresh wellFormed =>
    refine ⟨fun p hp => ?_, hs.isClosed.keep target _⟩
    obtain hp | rfl := Directory.mem_objects_keep hp
    · exact hs.wellFormed p hp
    · exact wellFormed
  | @rounded a precision n o m origins next found all =>
    have hn : n < (s.replace n ⟨m, origins⟩).objects.length := by
      obtain ⟨name, -, hnumber, -⟩ := exists_of_demand found
      exact (hs.isClosed.replace n ⟨m, origins⟩) name n hnumber
    have hm := (hasShape_of_rounding hs found all).toWellFormed
    refine ⟨?_, (hs.isClosed.replace n _).bind target hn⟩
    rw [Directory.objects_bind]
    exact wellFormed_replace hs hm n origins
  | @roundedPart a precision n o m origins next f found part =>
    have hm := (hasShape_of_rounding hs found part).toWellFormed
    exact ⟨wellFormed_replace hs hm n origins, hs.isClosed.replace n _⟩
  | @set a i j value n r c x o origins next found =>
    have hshape := setCell_hasShape ⟨hs.wellFormed_of_demand found, rfl, rfl⟩ r c x
    exact ⟨wellFormed_replace hs hshape.toWellFormed n origins, hs.isClosed.replace n _⟩

/-- A result is well-formed, also one that no name is given. -/
theorem wellFormed_result (hs : s.Sound) (h : Effect s target c out) {m : Matrix Float}
    (hm : out.2 = .ok m) : m.WellFormed := by
  cases h with
  | refused => cases hm
  | kept fresh wellFormed => cases hm; exact wellFormed
  | rounded found all => cases hm; exact (hasShape_of_rounding hs found all).toWellFormed
  | roundedPart => cases hm
  | @set a i j value n r c x o origins next found =>
    cases hm
    exact (setCell_hasShape ⟨hs.wellFormed_of_demand found, rfl, rfl⟩ r c x).toWellFormed

/-- An object stays as it is unless it is the one that the command changes where it is. -/
theorem getElem?_objects (h : Effect s target c out) {n : Nat} {o : Object}
    (ho : s.objects[n]? = some o)
    (hn : ∀ name, c.changed? = some (some name) → s.number? name ≠ some n) :
    out.1.objects[n]? = some o := by
  have hreplace : ∀ {ability : String} {a : Operand} {k : Nat} {p : Object}, c.changed? = some a →
      s.demand ability a = .ok (k, p) → ∀ q, (s.replace k q).objects[n]? = some o := by
    intro ability a k p hc found q
    obtain ⟨name, rfl, hnumber, -⟩ := exists_of_demand found
    have hne : k ≠ n := fun hkn => hn name hc (hkn ▸ hnumber)
    exact (List.getElem?_set_ne hne).trans ho
  cases h with
  | refused => exact ho
  | kept => exact Directory.getElem?_keep ho target _
  | rounded found =>
    rw [Directory.objects_bind]
    exact hreplace rfl found _
  | roundedPart found => exact hreplace rfl found _
  | set found => exact hreplace rfl found _

/-- A name refers to another object only if a result has been put under it. -/
theorem number?_eq (h : Effect s target c out) (name : String) :
    out.1.number? name =
      if out.2.isOk = true ∧ target = some name then s.handedOn name c else s.number? name := by
  cases h with
  | refused => rw [if_neg (fun h => nomatch h.1)]
  | kept fresh =>
    split
    next heq =>
      obtain ⟨-, rfl⟩ := heq
      rw [handedOn_of_fresh fresh]
      exact Directory.number?_keep_self ..
    next hne => exact Directory.number?_keep_of_ne (fun heq => hne ⟨rfl, heq⟩) _
  | rounded found =>
    split
    next heq =>
      obtain ⟨-, rfl⟩ := heq
      obtain ⟨name', rfl, hnumber, -⟩ := exists_of_demand found
      exact (Directory.number?_bind_self ..).trans hnumber.symm
    next hne => exact Directory.number?_bind_of_ne (fun heq => hne ⟨rfl, heq⟩) _
  | roundedPart => rw [if_neg (fun h => nomatch h.1)]; rfl
  | set => split <;> rfl

end Effect

theorem run_sound (hs : s.Sound) (steps : List Step) : (s.run steps).Sound := by
  induction steps generalizing s with
  | nil => exact hs
  | cons step steps ih =>
    exact ih ((apply_effect hs step.settings step.target step.command).sound hs)

end Store

end Matrix

end Simultaneous
