import Simultaneous.CommandLine.Arguments
import Simultaneous.CommandLine.Help
import Simultaneous.CommandLine.Printing
import Simultaneous.Solve

/-!
What the program does for one command line: what it prints, its exit code, what it logs, and the
settings it leaves behind.
-/

namespace Simultaneous.CommandLine

open Text

def versionText : String := "0.1.0"

/-- The settings under the arguments that override them. -/
def Arguments.override (a : Arguments) (s : Settings) : Settings :=
  let s := match a.precision with
    | some n => if 0 < n then { s with precision := n } else s
    | none => s
  let s := match a.maxIterations with
    | some n => { s with maxIterations := n }
    | none => s
  let s := match a.stopping with
    | some x => if 0 < x then { s with stopping := x } else s
    | none => s
  if a.retrySingular then { s with retrySingular := true } else s

/-- Where equations are to be found. -/
inductive Place
  | given (text : String)
  | file (path : String)
  | input

/-- An argument that is there and not empty. -/
def present? (s : Option String) : Option String :=
  match s with
  | some s => if s.isEmpty then none else some s
  | none => none

/-- Equations on the command line come first, then those of a file, then those of the input. -/
def Arguments.place (a : Arguments) : Place :=
  match present? a.equations, present? a.file with
  | some s, _ => .given s
  | none, some path => .file path
  | none, none => .input

/-- The arguments ask for equations, and not for something else. -/
def Arguments.solves (a : Arguments) : Bool := !a.version && a.operation.isNone

/-- What was found where equations were looked for. -/
inductive Found
  | text (s : String)
  | nothing
  | unreadable (path reason : String)

/-- What one run does. -/
structure Execution where
  settings : Settings
  output : String
  exitCode : Nat
  failure : Option Failure := none

/-- A result in print; the exit code says whether it is a good one. -/
def conclude (settings : Settings) (style : Style) (ok : Bool) (fields : List (String × Literal)) :
    Execution :=
  let p := printResult settings style (.record fields)
  { settings, output := p.text, exitCode := if ok then 0 else 1, failure := p.failure }

def breakDown (settings : Settings) (f : Failure) : Execution :=
  { settings, output := "", exitCode := 1, failure := some f }

/-- The random stream of a seed; `chance` stands in where there is none. -/
def streamOf (seed : Option Int) (chance : Int) : Random.Twister := .ofSeed (seed.getD chance)

/-- The matrix calculator. -/
def runCalculator (settings : Settings) (a : Arguments) (chance : Int) (operation : String) :
    Execution :=
  let style : Style := ⟨a.asJson, !a.hideOperands, a.asLiteral⟩
  let random := match a.randomSize with
    | some n => if n = 0 then none else some n
    | none => none
  let text (s : Option String) : Literal := (s.map Literal.str).getD .null
  let result := match random with
    | some n =>
      Matrix.calculateRandom settings operation (.int n) (streamOf a.seed chance)
    | none => Matrix.calculate settings operation (text a.matrixA) (text a.matrixB)
  match result with
  | .error f => breakDown settings f
  | .ok r => conclude settings style r.ok (r.toFields .float)

/-- The equation solver. -/
def runSolver (settings : Settings) (a : Arguments) (chance : Int) : Found → Execution
  | .unreadable path reason =>
    { settings, output := "Error: cannot read " ++ path ++ ": " ++ reason ++ "\n", exitCode := 1 }
  | .nothing => missing
  | .text s =>
    if (trim s.toList).isEmpty then missing
    else
      let stream := streamOf (a.seed.or settings.seed) chance
      match solveSystem settings stream (EquationSystem.givenIn s) with
      | .error f => breakDown settings f
      | .ok r => conclude settings { asJson := a.asJson } r.ok (r.toFields .float)
where
  missing : Execution :=
    { settings
      output := "Error: No equations given. Use -e, -f or pipe equations on stdin.\n"
      exitCode := 1 }

/-- Carry out the arguments, with what was found where they place the equations. -/
def run (settings : Settings) (a : Arguments) (chance : Int) (found : Found) : Execution :=
  if a.version then { settings, output := versionText ++ "\n", exitCode := 0 }
  else
    let settings := a.override settings
    match a.operation with
    | some op => runCalculator settings a chance op
    | none => runSolver settings a chance found

/-- What the same run writes to its log. -/
def entriesOf (settings : Settings) (a : Arguments) (chance : Int) : Found → List Log.Entry
  | .text s =>
    let settings := a.override settings
    if !a.solves || (trim s.toList).isEmpty then []
    else .of .debug "cli" ("Solving input " ++ quoted s) ::
      Log.ofSolving settings (streamOf (a.seed.or settings.seed) chance) (EquationSystem.givenIn s)
  | _ => []

/-- The lines of the log, of the level that the arguments set. -/
def logLines (settings : Settings) (a : Arguments) (chance : Int) (found : Found) : List String :=
  Log.linesOf (Log.Level.rankOf a.logLevel) (entriesOf settings a chance found)

/-- What is written when the command line cannot be read. -/
def usageError (m : Misuse) : String := "eqsolver: error: " ++ m.message

end Simultaneous.CommandLine
