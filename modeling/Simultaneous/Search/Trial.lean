import Simultaneous.Newton.Solver
import Simultaneous.Reduction
import Simultaneous.EquationSystem

/-!
One trial at an over-determined system: equations are left out until it is square, the rest is
solved, and the solution is tried in the equations left out.
-/

namespace Simultaneous

/-- A point that solves a system, in the order of its variables, and how it was found. -/
structure Solution where
  unknowns : List String
  point : Matrix Float
  iterations : Nat
  attempts : Nat
  dropped : List Nat

namespace Solution

def values (s : Solution) : List Float := s.point.firstColumn

/-- The values by name, of two of one name the later one. -/
def toFields (s : Solution) : List (String × Float) := s.unknowns.zip s.values

/-- The value of a variable. -/
def get (s : Solution) (name : String) : Attempt Float :=
  match s.unknowns.idxOf? name with
  | none => .error (.broken (.notInList (Text.quoted name)))
  | some i => match s.point.get? i 0 with
    | none => .error (.broken (.indexOutOfRange "list"))
    | some x => .ok x

end Solution

namespace Search

/-- What a point makes of equations it was not made for. The first equation that does not hold
decides: it is off by a residual, or has no value there. -/
inductive Verdict
  | satisfied
  | off (index : Int) (equation : Equation) (residual : Float)
  | undefined (index : Int) (equation : Equation) (reason : Failure)

def Verdict.holds : Verdict → Bool
  | satisfied => true
  | _ => false

/-- Try a point in the equations at some positions. -/
def verify (system : EquationSystem) (tolerance : Float) (point : Matrix Float) :
    List Int → Attempt Verdict
  | [] => .ok .satisfied
  | i :: is =>
    match (placeOf? i system.equations.length).bind (system.equations[·]?) with
    | none => .error (.broken (.indexOutOfRange "list"))
    | some e => match e.toResidual.value (Newton.bindings system.unknowns point) with
      | .error f => if f.isBroken then .error f else .ok (.undefined i e f)
      | .ok r =>
        if tolerance < r.abs then .ok (.off i e r)
        else verify system tolerance point is

/-- The solver of some equations in the variables of a system. -/
def solver (system : EquationSystem) (settings : Settings) (es : List Equation) :
    Newton.Solver Float :=
  { problem := .ofEquations settings es system.unknowns }

/-- How a trial ended. -/
inductive Ending
  | solved (x : Matrix Float)
  | rejected (verdict : Verdict)
  | singular (reason : Failure)
  | failed (reason : Failure)

/-- What a trial decides; nothing if another one is to follow. -/
def Ending.decision? (retrySingular : Bool) : Ending → Option (Attempt (Matrix Float))
  | solved x => some (.ok x)
  | rejected _ => none
  | singular f => if retrySingular then none else some (.error f)
  | failed f => some (.error f)

/-- One trial: where the circle of equations began, what was left out, the random point from which
the rest was solved, and how that went. -/
structure Trial where
  start : Nat
  reduction : Reduction
  origin : Attempt (Matrix Float)
  iterations : Nat
  found : Attempt (Matrix Float)
  ending : Ending

/-- How a run over the rest ends the trial. -/
def judge (system : EquationSystem) (settings : Settings) (removed : List Nat) :
    Attempt (Matrix Float) → Ending
  | .error (.matrix (.noPivot c) _) => .singular (.matrix (.noPivot c) true)
  | .error f => .failed f
  | .ok x => match verify system settings.tolerance x (removed.map Int.ofNat) with
    | .error f => .failed f
    | .ok .satisfied => .solved x
    | .ok v => .rejected v

/-- A trial from a place in the circle. -/
def attempt (system : EquationSystem) (settings : Settings) (start : Nat) (t : Random.Twister) :
    Except Unsolved (Trial × Random.Twister) := do
  let (rest, reduced) :=
    Reduction.reduce Equation.unknowns system.unknowns.length start system.equations
  let r ← reduced
  let origin := (Newton.draw settings system.unknowns.length t).1
  let ((s, t), found) := (solver system settings rest).solve settings t
  return (⟨start, r, origin, s.iterations, found, judge system settings r.removed found⟩, t)

end Search

end Simultaneous
