import Simultaneous.Matrix.Calculator

/-!
The options of the command line: their names, what they take, and what the help says of them.
-/

namespace Simultaneous.CommandLine

inductive Flag
  | help
  | eval
  | file
  | format
  | seed
  | maxIterations
  | stoppingCriterion
  | retrySingular
  | precision
  | matrixOp
  | matrixA
  | matrixB
  | randomSize
  | noOperands
  | literal
  | version
  | logLevel
  | logFile
  deriving DecidableEq, Repr

namespace Flag

def all : List Flag := [
  help, eval, file, format, seed, maxIterations, stoppingCriterion, retrySingular, precision,
  matrixOp, matrixA, matrixB, randomSize, noOperands, literal, version, logLevel, logFile]

def names : Flag → List String
  | help => ["-h", "--help"]
  | eval => ["-e", "--eval"]
  | file => ["-f", "--file"]
  | format => ["--format"]
  | seed => ["--seed"]
  | maxIterations => ["--max-iterations"]
  | stoppingCriterion => ["--stopping-criterion"]
  | retrySingular => ["--retry-singular"]
  | precision => ["-p", "--precision"]
  | matrixOp => ["--matrix-op"]
  | matrixA => ["-a", "--matrix-a"]
  | matrixB => ["-b", "--matrix-b"]
  | randomSize => ["--random-size"]
  | noOperands => ["--no-operands"]
  | literal => ["--literal"]
  | version => ["-v", "--version"]
  | logLevel => ["--log-level"]
  | logFile => ["--log-file"]

/-- What an option takes. -/
inductive Argument
  | nothing
  | text (placeholder : String)
  | integer (placeholder : String)
  | number (placeholder : String)
  | choice (choices : List String)
  deriving DecidableEq, Repr

def levels : List String := ["DEBUG", "INFO", "WARNING", "ERROR"]

def argument : Flag → Argument
  | help | retrySingular | noOperands | literal | version => .nothing
  | eval => .text "EVAL_EXPR"
  | file => .text "FILE"
  | format => .choice ["json", "human"]
  | seed => .integer "SEED"
  | maxIterations => .integer "MAX_ITERATIONS"
  | stoppingCriterion => .number "STOPPING_CRITERION"
  | precision => .integer "PRECISION"
  | matrixOp => .choice ["add", "inv", "mul", "sub"]
  | matrixA => .text "MATRIX_A"
  | matrixB => .text "MATRIX_B"
  | randomSize => .integer "RANDOM_SIZE"
  | logLevel => .choice levels
  | logFile => .text "LOG_FILE"

/-- The option stands alone. -/
def isSwitch (o : Flag) : Bool := o.argument == .nothing

/-- The option as messages name it. -/
def label (o : Flag) : String := Text.join "/" o.names

/-- All names with their options, in the order of the help. -/
def table : List (String × Flag) := all.flatMap fun o => o.names.map fun n => (n, o)

def ofName? (s : String) : Option Flag := (table.find? (·.1 == s)).map (·.2)

end Flag

end Simultaneous.CommandLine
