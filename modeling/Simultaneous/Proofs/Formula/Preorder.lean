import Mathlib.Data.List.Basic
import Simultaneous.Formula.Admission
import Simultaneous.Proofs.Attempt

/-!
Which trees are admitted. The count that is handed on from operand to operand numbers the nodes in
the order in which they stand, each before its operands, so that admission goes through one list of
nodes: a tree is admitted if no node offends, and refused for the first one that does.
-/

namespace Simultaneous.Formula

open Attempt

/-- A node with its depth below the root. -/
structure Visit where
  node : Tree
  depth : Nat

namespace Tree

mutual

/-- The number of nodes. -/
def size : Tree → Nat
  | atom | foreign _ => 1
  | call _ ts | compound ts => sizeOfAll ts + 1

def sizeOfAll : List Tree → Nat
  | [] => 0
  | t :: ts => t.size + sizeOfAll ts

end

mutual

/-- The nodes from left to right, each before its operands. -/
def visits (depth : Nat) : Tree → List Visit
  | atom => [⟨atom, depth⟩]
  | call name ts => ⟨call name ts, depth⟩ :: visitsOfAll (depth + 1) ts
  | compound ts => ⟨compound ts, depth⟩ :: visitsOfAll (depth + 1) ts
  | foreign kind => [⟨foreign kind, depth⟩]

def visitsOfAll (depth : Nat) : List Tree → List Visit
  | [] => []
  | t :: ts => t.visits depth ++ visitsOfAll depth ts

end

mutual

theorem length_visits (depth : Nat) : ∀ t : Tree, (t.visits depth).length = t.size
  | atom | foreign _ => rfl
  | call _ ts | compound ts => by
    rw [visits, size, List.length_cons, length_visitsOfAll (depth + 1) ts]

theorem length_visitsOfAll (depth : Nat) :
    ∀ ts : List Tree, (visitsOfAll depth ts).length = sizeOfAll ts
  | [] => rfl
  | t :: ts => by
    rw [visitsOfAll, sizeOfAll, List.length_append, length_visits depth t,
      length_visitsOfAll depth ts]

end

theorem size_pos (t : Tree) : 0 < t.size := by
  cases t <;> exact Nat.succ_pos _

mutual

theorem isScalar_iff (depth : Nat) :
    ∀ t : Tree, t.isScalar = true ↔ ∀ v ∈ t.visits depth, ∀ kind, v.node ≠ foreign kind
  | atom => by simp [isScalar, visits]
  | foreign kind => by simp [isScalar, visits]
  | call _ ts | compound ts => by
    rw [isScalar, allScalar_iff (depth + 1) ts, visits, List.forall_mem_cons]
    simp

theorem allScalar_iff (depth : Nat) :
    ∀ ts : List Tree,
      allScalar ts = true ↔ ∀ v ∈ visitsOfAll depth ts, ∀ kind, v.node ≠ foreign kind
  | [] => by simp [allScalar, visitsOfAll]
  | t :: ts => by
    rw [allScalar, Bool.and_eq_true, isScalar_iff depth t, allScalar_iff depth ts, visitsOfAll,
      List.forall_mem_append]

end

end Tree

/-- What a node has to be, by its number among the nodes, to be admitted. -/
structure Passes (limits : Settings) (number : Nat) (v : Visit) : Prop where
  nodes : (number : Int) ≤ limits.maxNodes
  levels : (v.depth : Int) ≤ limits.maxDepth
  function : ∀ name ts, v.node = .call name ts → name ∈ allowedNames
  scalar : ∀ kind, v.node ≠ .foreign kind

/-- The first thing that is wrong with a node, with its code. -/
inductive Offends (limits : Settings) (number : Nat) : Visit → Refusal → String → Prop
  | nodes {v : Visit} (h : limits.maxNodes < (number : Int)) :
      Offends limits number v (.tooComplex limits.maxNodes) "TOO_COMPLEX"
  | levels {v : Visit} (nodes : (number : Int) ≤ limits.maxNodes)
      (h : limits.maxDepth < (v.depth : Int)) :
      Offends limits number v (.tooDeep limits.maxDepth) "TOO_DEEP"
  | function {name : String} {ts : List Tree} {depth : Nat}
      (nodes : (number : Int) ≤ limits.maxNodes) (levels : (depth : Int) ≤ limits.maxDepth)
      (h : name ∉ allowedNames) :
      Offends limits number ⟨.call name ts, depth⟩ (.forbiddenFunction name) "FORBIDDEN_FUNCTION"
  | kind {kind : String} {depth : Nat}
      (nodes : (number : Int) ≤ limits.maxNodes) (levels : (depth : Int) ≤ limits.maxDepth) :
      Offends limits number ⟨.foreign kind, depth⟩ (.notScalarKind kind) "expression.parse"

/-- Of numbered nodes, the first that does not pass offends in this way. -/
def FirstOffence (limits : Settings) (vs : List (Visit × Nat)) (r : Refusal) (code : String) :
    Prop :=
  ∃ before v number after, vs = before ++ (v, number) :: after ∧ Offends limits number v r code ∧
    ∀ w ∈ before, Passes limits w.2 w.1

/-- The limits on a whole tree, and what its nodes have to be. -/
structure Admissible (limits : Settings) (t : Tree) : Prop where
  nodes : (t.size : Int) ≤ limits.maxNodes
  levels : ∀ v ∈ t.visits 0, (v.depth : Int) ≤ limits.maxDepth
  functions : ∀ v ∈ t.visits 0, ∀ name ts, v.node = .call name ts → name ∈ allowedNames
  scalar : ∀ v ∈ t.visits 0, ∀ kind, v.node ≠ .foreign kind

variable {limits : Settings} {t : Tree} {count n : Nat} {v : Visit} {vs : List Visit} {r : Refusal}
  {code : String}

/-- Within the limits only the kind of a node counts. -/
theorem acceptNode_within {depth : Nat} (nodes : ((count + 1 : Nat) : Int) ≤ limits.maxNodes)
    (levels : (depth : Int) ≤ limits.maxDepth) : acceptNode limits depth count t = acceptKind t := by
  have hnodes : ¬ limits.maxNodes < (count : Int) + 1 := Int.not_lt.mpr nodes
  rw [acceptNode, if_neg hnodes, if_neg (Int.not_lt.mpr levels)]

theorem acceptKind_eq_ok_iff :
    acceptKind t = .ok () ↔
      (∀ name ts, t = .call name ts → name ∈ allowedNames) ∧ ∀ kind, t ≠ .foreign kind := by
  cases t with
  | atom | compound ts => simp [acceptKind]
  | call name ts => by_cases hname : name ∈ allowedNames <;> simp [acceptKind, hname]
  | foreign kind => simp [acceptKind]

theorem acceptNode_eq_ok_iff :
    acceptNode limits v.depth count v.node = .ok () ↔ Passes limits (count + 1) v := by
  constructor
  · intro h
    unfold acceptNode at h
    split at h
    · cases h
    split at h
    · cases h
    next hnodes hlevels =>
    obtain ⟨hfunction, hscalar⟩ := acceptKind_eq_ok_iff.mp h
    exact ⟨Int.not_lt.mp hnodes, Int.not_lt.mp hlevels, hfunction, hscalar⟩
  · intro h
    rw [acceptNode_within h.nodes h.levels]
    exact acceptKind_eq_ok_iff.mpr ⟨h.function, h.scalar⟩

theorem acceptNode_eq_error_iff :
    acceptNode limits v.depth count v.node = .error r ↔ Offends limits (count + 1) v r r.code := by
  constructor
  · intro h
    obtain ⟨node, depth⟩ := v
    unfold acceptNode at h
    split at h
    next hnodes =>
      cases h
      exact .nodes hnodes
    next hnodes =>
    split at h
    next hlevels =>
      cases h
      exact .levels (Int.not_lt.mp hnodes) hlevels
    next hlevels =>
    cases node with
    | atom | compound ts => cases h
    | call name ts =>
      rw [acceptKind] at h
      split at h
      next => cases h
      next hname =>
        cases h
        exact .function (Int.not_lt.mp hnodes) (Int.not_lt.mp hlevels) (by simpa using hname)
    | foreign kind =>
      cases h
      exact .kind (Int.not_lt.mp hnodes) (Int.not_lt.mp hlevels)
  · intro h
    generalize r.code = code at h
    cases h with
    | nodes h => exact if_pos h
    | levels nodes h =>
      have hnodes : ¬ limits.maxNodes < (count : Int) + 1 := Int.not_lt.mpr nodes
      rw [acceptNode, if_neg hnodes, if_pos h]
    | function nodes levels h =>
      rw [acceptNode_within nodes levels, acceptKind, if_neg (by simpa using h)]
    | kind nodes levels => exact acceptNode_within nodes levels

/-- The nodes of a list tested one after the other; the result is the number of nodes visited so
far. -/
def examine (limits : Settings) (count : Nat) : List Visit → Except Refusal Nat
  | [] => .ok count
  | v :: vs => do
    acceptNode limits v.depth count v.node
    examine limits (count + 1) vs

theorem examine_append (vs ws : List Visit) :
    examine limits count (vs ++ ws) =
      (do let n ← examine limits count vs; examine limits n ws) := by
  induction vs generalizing count with
  | nil => rfl
  | cons v vs ih =>
    rw [List.cons_append, examine, examine, bind_assoc]
    simp only [ih]

mutual

/-- Handing the count on from operand to operand comes to going through the list of all nodes. -/
theorem accept_eq_examine (limits : Settings) :
    ∀ (t : Tree) (depth count : Nat),
      accept limits depth count t = examine limits count (t.visits depth)
  | .atom, _, _ | .foreign _, _, _ => rfl
  | .call _ ts, depth, count | .compound ts, depth, count => by
    rw [accept, Tree.visits, examine]
    simp only [acceptAll_eq_examine limits ts]

theorem acceptAll_eq_examine (limits : Settings) :
    ∀ (ts : List Tree) (depth count : Nat),
      acceptAll limits depth count ts = examine limits count (Tree.visitsOfAll depth ts)
  | [], _, _ => rfl
  | t :: ts, depth, count => by
    rw [acceptAll, Tree.visitsOfAll, examine_append, accept_eq_examine limits t]
    simp only [acceptAll_eq_examine limits ts]

end

theorem firstOffence_nil : ¬ FirstOffence limits [] r code := by
  rintro ⟨before, v, number, after, hsplit, -⟩
  simp at hsplit

theorem firstOffence_cons {ws : List (Visit × Nat)} :
    FirstOffence limits ((v, n) :: ws) r code ↔
      Offends limits n v r code ∨ Passes limits n v ∧ FirstOffence limits ws r code := by
  constructor
  · rintro ⟨before, w, number, after, hsplit, hoffends, hpasses⟩
    cases before with
    | nil =>
      cases hsplit
      exact .inl hoffends
    | cons p before =>
      cases hsplit
      rw [List.forall_mem_cons] at hpasses
      exact .inr ⟨hpasses.1, before, w, number, after, rfl, hoffends, hpasses.2⟩
  · rintro (hoffends | ⟨hv, before, w, number, after, rfl, hoffends, hpasses⟩)
    · exact ⟨[], v, n, ws, rfl, hoffends, List.forall_mem_nil _⟩
    · exact ⟨(v, n) :: before, w, number, after, rfl, hoffends,
        List.forall_mem_cons.mpr ⟨hv, hpasses⟩⟩

theorem examine_eq_ok_iff :
    examine limits count vs = .ok n ↔
      n = count + vs.length ∧ ∀ p ∈ vs.zipIdx (count + 1), Passes limits p.2 p.1 := by
  induction vs generalizing count with
  | nil => simp [examine, eq_comm]
  | cons v vs ih =>
    rw [examine, bind_eq_ok, List.zipIdx_cons, List.forall_mem_cons, ← acceptNode_eq_ok_iff]
    constructor
    · rintro ⟨_, hv, hvs⟩
      obtain ⟨hn, hpasses⟩ := ih.mp hvs
      rw [List.length_cons]
      exact ⟨by omega, hv, hpasses⟩
    · rintro ⟨hn, hv, hpasses⟩
      rw [List.length_cons] at hn
      exact ⟨(), hv, ih.mpr ⟨by omega, hpasses⟩⟩

theorem examine_eq_error_iff :
    examine limits count vs = .error r ↔ FirstOffence limits (vs.zipIdx (count + 1)) r r.code := by
  induction vs generalizing count with
  | nil => simp [examine, firstOffence_nil]
  | cons v vs ih =>
    rw [examine, bind_eq_error, List.zipIdx_cons, firstOffence_cons, ← acceptNode_eq_ok_iff,
      ← acceptNode_eq_error_iff, ← ih]
    exact or_congr_right ⟨fun ⟨_, h⟩ => h, fun h => ⟨(), h⟩⟩

/-- The last node has the number of all nodes. -/
theorem exists_last_visit (t : Tree) : ∃ v, (v, t.size) ∈ (t.visits 0).zipIdx 1 := by
  have hlength := t.length_visits 0
  have hpos := t.size_pos
  have hlast : t.size - 1 < (t.visits 0).length := by omega
  refine ⟨(t.visits 0)[t.size - 1], List.mk_mem_zipIdx_iff_le_and_getElem?_sub.mpr ⟨hpos, ?_⟩⟩
  exact List.getElem?_eq_getElem hlast

/-- All nodes pass just when the number of the last one, their depths and their kinds are as they
have to be. -/
theorem forall_passes_iff :
    (∀ p ∈ (t.visits 0).zipIdx 1, Passes limits p.2 p.1) ↔ Admissible limits t := by
  constructor
  · intro h
    have hpasses : ∀ v ∈ t.visits 0, ∃ number, Passes limits number v := by
      intro v hv
      obtain ⟨i, hi⟩ := List.mem_iff_getElem?.mp hv
      have hp : (v, i + 1) ∈ (t.visits 0).zipIdx 1 :=
        List.mk_mem_zipIdx_iff_le_and_getElem?_sub.mpr ⟨Nat.le_add_left 1 i, hi⟩
      exact ⟨i + 1, h _ hp⟩
    obtain ⟨last, hlast⟩ := exists_last_visit t
    refine ⟨(h _ hlast).nodes, fun v hv => ?_, fun v hv => ?_, fun v hv => ?_⟩
    all_goals obtain ⟨number, hv⟩ := hpasses v hv
    · exact hv.levels
    · exact hv.function
    · exact hv.scalar
  · intro h p hp
    have hv : p.1 ∈ t.visits 0 := List.fst_mem_of_mem_zipIdx hp
    have hnumber : p.2 ≤ t.size := by
      have hlt := List.snd_lt_add_of_mem_zipIdx hp
      rw [t.length_visits 0] at hlt
      omega
    have hnodes : (p.2 : Int) ≤ t.size := Int.ofNat_le.mpr hnumber
    exact ⟨Int.le_trans hnodes h.nodes, h.levels _ hv, h.functions _ hv, h.scalar _ hv⟩

theorem accept_eq_ok_iff : accept limits 0 0 t = .ok n ↔ n = t.size ∧ Admissible limits t := by
  rw [accept_eq_examine, examine_eq_ok_iff, Nat.zero_add, Nat.zero_add, t.length_visits 0,
    forall_passes_iff]

theorem accept_eq_error_iff :
    accept limits 0 0 t = .error r ↔ FirstOffence limits ((t.visits 0).zipIdx 1) r r.code := by
  rw [accept_eq_examine, examine_eq_error_iff]

/-- A tree is admitted just when it has no more nodes and levels than the limits say, the names of
all functions are allowed, and every node is an expression; the count is then that of its nodes. If
it is refused, this is for the first node that offends. -/
theorem accept_decides (limits : Settings) (t : Tree) :
    (∀ n, accept limits 0 0 t = .ok n ↔ n = t.size ∧ Admissible limits t) ∧
      ∀ r, accept limits 0 0 t = .error r ↔
        FirstOffence limits ((t.visits 0).zipIdx 1) r r.code :=
  ⟨fun _ => accept_eq_ok_iff, fun _ => accept_eq_error_iff⟩

example :
    accept {} 0 0 (.compound [.call "exp" [.foreign "Tuple"], .call "f" [.atom]]) =
      .error (.notScalarKind "Tuple") :=
  rfl

end Simultaneous.Formula
