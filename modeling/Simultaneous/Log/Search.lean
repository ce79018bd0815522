import Simultaneous.Log.Entry
import Simultaneous.Search.Basic

/-!
What solving a system writes to the log, in the order in which it happens.
-/

namespace Simultaneous.Log

open Text

def positions (is : List Nat) : String := (Literal.list (is.map fun (i : Nat) => .int i)).shown

def numbers (xs : List Float) : String := (Literal.list (xs.map .float)).shown

/-- What is written when input is refused. -/
def ofRefusal : Refusal → List Entry
  | .forbiddenToken token length => [.of .warning "parser"
      ("Blocked input containing forbidden token " ++ quoted token ++ " (length " ++
        toString length ++ ")")]
  | .forbiddenFunction name => [.of .warning "parser" ("Blocked forbidden function " ++ name)]
  | .unreadable text => [.of .debug "parser"
      ("Failed to parse " ++ quoted text ++ ": invalid syntax (<string>, line 1)")]
  | _ => []

/-- Equations without unknowns are reported with their position; reading ends at the first that
cannot be read. -/
def ofReading (limits : Settings) : Nat → List Equation.Given → List Entry
  | _, [] => []
  | i, g :: gs => match g.read limits with
    | .error (.refused r) => ofRefusal r
    | .error _ => []
    | .ok e =>
      (if EquationSystem.isActive e then []
        else [.of .debug "equations"
          ("Dropping equation " ++ toString i ++ " (" ++ e.text ++ "): no variables")]) ++
      ofReading limits (i + 1) gs

/-- A run from a starting point. -/
def ofRun (origin : Attempt (Matrix Float)) (iterations : Nat) (found : Attempt (Matrix Float)) :
    List Entry :=
  (match origin with
    | .ok x => [.of .debug "newton" ("Starting point " ++ numbers x.firstColumn)]
    | .error _ => []) ++
  (match found with
    | .ok x => [.of .debug "newton"
        ("Converged after " ++ toString iterations ++ " iterations: " ++ numbers x.firstColumn)]
    | .error _ => [])

def ofVerdict : Search.Verdict → List Entry
  | .satisfied => []
  | .off i e r => [.of .debug "solver"
      ("Dropped equation " ++ toString i ++ " (" ++ e.text ++ ") off by " ++ Decimal.general 3 r)]
  | .undefined i e f => [.of .debug "solver"
      ("Dropped equation " ++ toString i ++ " (" ++ e.text ++ ") undefined at solution: " ++
        f.message)]

/-- The end of trial number `n`. -/
def ofEnding (retrySingular : Bool) (n : Nat) (removed : List Nat) : Search.Ending → List Entry
  | .solved _ => [.of .info "solver" ("Attempt " ++ toString n ++
      ": solution satisfies dropped equations " ++ positions removed)]
  | .rejected v => ofVerdict v ++ [.of .info "solver" ("Attempt " ++ toString n ++
      ": dropped equations " ++ positions removed ++ " not satisfied")]
  | .singular _ =>
    if retrySingular then [.of .info "solver" ("Attempt " ++ toString n ++
      ": singular Jacobian after dropping " ++ positions removed)]
    else []
  | .failed _ => []

def ofTrial (retrySingular : Bool) (n : Nat) (t : Search.Trial) : List Entry :=
  [.of .debug "preprocessor" ("Scan from " ++ toString t.start ++ ": candidates " ++
      positions t.reduction.candidates ++ ", removed " ++ positions t.reduction.removed),
    .of .debug "solver" ("Attempt " ++ toString n ++ ": scan from " ++ toString t.start ++
      " dropped " ++ positions t.reduction.removed)] ++
  ofRun t.origin t.iterations t.found ++ ofEnding retrySingular n t.reduction.removed t.ending

def ofTrials (retrySingular : Bool) : Nat → List Search.Trial → List Entry
  | _, [] => []
  | n, t :: ts => ofTrial retrySingular n t ++ ofTrials retrySingular (n + 1) ts

/-- Everything that a search writes when it solves its system. -/
def ofSearch (s : Search) : List Entry :=
  .of .info "solver" ("Solving " ++ s.system.kind.text ++ " system: " ++
      toString s.system.equations.length ++ " equations, " ++
      toString s.system.unknowns.length ++ " variables") ::
  match s.system.kind with
  | .underdetermined => []
  | .square =>
    let run := s.squareRun
    ofRun run.origin run.iterations run.found
  | .overdetermined => ofTrials s.settings.retrySingular 1 s.seriesOf.trials

end Simultaneous.Log
