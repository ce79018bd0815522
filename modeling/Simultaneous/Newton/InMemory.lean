import Simultaneous.Matrix.Heap
import Simultaneous.Newton.Problem

/-!
The slopes at a point as they are taken in memory: each coordinate is moved in a copy of the point,
and the slopes go into a matrix of zeros one by one.
-/

namespace Simultaneous.Newton

open Matrix (Heap Layout)

/-- A copy of a point with one coordinate moved. -/
def shiftIn (epsilon : Float) (k : Nat) (point : Layout) (h : Heap) : Heap × Attempt Layout :=
  let (h, copy) := h.lay (h.read point)
  match (h.read copy).get? k 0 with
  | none => (h, .error (.broken (.indexOutOfRange "list")))
  | some x => (h.write copy k 0 (x + epsilon), .ok copy)

namespace Problem

variable (p : Problem Float)

/-- The slope of a residual along coordinate `k`, from its value `here`. -/
def slopeIn (point : Layout) (r : Residual Float) (here : Float) (k : Nat) (h : Heap) :
    Heap × Attempt Float :=
  match shiftIn p.options.epsilon k point h with
  | (h, .error f) => (h, .error f)
  | (h, .ok moved) => (h, do
    let there ← r.value (bindings p.unknowns (h.read moved))
    match Scalar.over? (there - here) p.options.epsilon with
    | some s => return s
    | none => .error (.broken .floatDivisionByZero))

/-- The slopes of residual `i` along listed variables that it contains go into row `i`. -/
def slopesIn (point target : Layout) (i : Nat) (r : Residual Float) (here : Float) :
    List (String × Nat) → Heap → Heap × Option Failure
  | [], h => (h, none)
  | (name, k) :: rest, h =>
    if r.unknowns.contains name then
      match p.slopeIn point r here k h with
      | (h, .error f) => (h, some f)
      | (h, .ok s) =>
        if i < p.unknowns.length then slopesIn point target i r here rest (h.write target i k s)
        else (h, some (.broken (.indexOutOfRange "list")))
    else slopesIn point target i r here rest h

/-- The slopes of listed residuals go into their rows. -/
def rowsIn (point target : Layout) :
    List ((Residual Float × Float) × Nat) → Heap → Heap × Option Failure
  | [], h => (h, none)
  | ((r, here), i) :: rest, h =>
    match p.slopesIn point target i r here p.unknowns.zipIdx h with
    | (h, some f) => (h, some f)
    | (h, none) => rowsIn point target rest h

/-- The square matrix of slopes at a point with residuals `here`. -/
def jacobianIn (point : Layout) (here : List Float) (h : Heap) : Heap × Attempt Layout :=
  match Matrix.filled p.unknowns.length p.unknowns.length (0 : Float) with
  | .error f => (h, .error f)
  | .ok blank =>
    let (h, target) := h.lay blank
    match p.rowsIn point target (p.residuals.zip here).zipIdx h with
    | (h, some f) => (h, .error f)
    | (h, none) => (h, .ok target)

end Problem

end Simultaneous.Newton
