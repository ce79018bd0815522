import Simultaneous.CommandLine.Flag
import Simultaneous.Settings

/-!
The text of the help: how to call the program, then every option with what it does, in columns.
-/

namespace Simultaneous.CommandLine

open Text

def usage : List String := [
  "usage: eqsolver [-h] [-e EVAL_EXPR] [-f FILE] [--format \x7bjson,human\x7d]",
  "                [--seed SEED] [--max-iterations MAX_ITERATIONS]",
  "                [--stopping-criterion STOPPING_CRITERION] [--retry-singular]",
  "                [-p PRECISION] [--matrix-op \x7badd,inv,mul,sub\x7d] [-a MATRIX_A]",
  "                [-b MATRIX_B] [--random-size RANDOM_SIZE] [--no-operands]",
  "                [--literal] [-v] [--log-level \x7bDEBUG,INFO,WARNING,ERROR\x7d]",
  "                [--log-file LOG_FILE]"]

namespace Flag

/-- What stands for the value of an option. -/
def placeholder? (o : Flag) : Option String :=
  match o.argument with
  | .nothing => none
  | .text s | .integer s | .number s => some s
  | .choice choices => some ("\x7b" ++ join "," choices ++ "\x7d")

/-- The names of an option, each with its value. -/
def heading (o : Flag) : String :=
  join ", " (o.names.map fun n => match o.placeholder? with
    | none => n
    | some p => n ++ " " ++ p)

/-- What an option does, with the default that is in force. -/
def explanation (s : Settings) : Flag → String
  | help => "show this help message and exit"
  | eval => "Equations to solve, separated by newlines, ';' or ','"
  | file => "Read equations from a file"
  | format => "Output format: json (machine-readable) or human (human-readable)"
  | seed => "Seed for random starting points / matrices"
  | maxIterations =>
      "Newton iteration guard; 0 disables it (default: " ++ toString s.maxIterations ++ ")"
  | stoppingCriterion => "Convergence threshold on the change in residuals (default: " ++
      Decimal.general 6 s.stopping ++ ")"
  | retrySingular =>
      "Retry over-determined systems with another drop-set when the Jacobian is singular"
  | precision => "Set output precision (significant digits)"
  | matrixOp => "Run the matrix calculator instead of the equation solver"
  | matrixA => "Matrix A literal, e.g. [[1,2],[3,4]]"
  | matrixB => "Matrix B literal"
  | randomSize => "Use random square matrices of this size"
  | noOperands => "Print only the matrix result"
  | literal => "Print matrices as nested-list literals"
  | version => "Show program version"
  | logLevel => "Set logging level"
  | logFile => "Write logs to file"

end Flag

/-- Words in lines of at most `width` characters; `line` is the one that is being filled. -/
def fill (width : Nat) : String → List String → List String
  | line, [] => [line]
  | line, w :: ws =>
    if line.isEmpty then fill width w ws
    else if line.length + 1 + w.length ≤ width then fill width (line ++ " " ++ w) ws
    else line :: fill width w ws

def spaces (n : Nat) : String := String.ofList (List.replicate n ' ')

/-- The column at which explanations begin. -/
def explanationColumn : Nat := 24

/-- The width of an explanation. -/
def explanationWidth : Nat := 54

/-- The lines about an option: a long heading has a line of its own. -/
def entryLines (s : Settings) (o : Flag) : List String :=
  let heading := "  " ++ o.heading
  let words := (pieces (· == ' ') (o.explanation s).toList).map String.ofList
  let lines := fill explanationWidth "" words
  let indent := spaces explanationColumn
  if heading.length + 2 ≤ explanationColumn then
    (heading ++ spaces (explanationColumn - heading.length) ++ lines.headD "") ::
      lines.tail.map (indent ++ ·)
  else heading :: lines.map (indent ++ ·)

/-- The whole help. -/
def helpText (s : Settings) : String :=
  join "\n" (usage ++
    ["", "Solve systems of nonlinear equations with Newton-Raphson.", "", "options:"] ++
    Flag.all.flatMap (entryLines s)) ++ "\n"

end Simultaneous.CommandLine
