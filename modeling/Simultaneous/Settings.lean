import Simultaneous.Failure

/-!
The adjustable values of the library, their defaults, and how an environment overrides them.
-/

namespace Simultaneous

open Decimal Text

structure Settings where
  /-- Step of the forward differences. -/
  epsilon : Float := 1e-6
  /-- Largest change of a residual at which an iteration counts as converged. -/
  stopping : Float := 1e-3
  maxIterations : Int := 500
  /-- The steps after which an iteration without limit is taken to be endless. -/
  patience : Nat := Nat.pow 2 62
  /-- Decimals kept in a converged point. -/
  roundDigits : Int := 12
  rangeOffset : Float := 0
  rangeWidth : Float := 1
  seed : Option Int := none
  /-- Largest residual allowed on an equation that was left out. -/
  tolerance : Float := 1e-5
  retrySingular : Bool := false
  /-- Pivots smaller than this count as zero. -/
  pivotTolerance : Float := 1e-12
  randomLow : Float := -5
  randomHigh : Float := 5
  /-- Significant digits of printed numbers. -/
  precision : Int := 10
  maxLength : Int := 10000
  maxDepth : Int := 100
  maxNodes : Int := 5000
  cacheSize : Int := 1024

namespace Settings

def asFloat (v : Literal) (old : Float) : Float :=
  match v.toFloat with
  | .ok x => x
  | .error _ => old

def asInt : Literal → Int → Int
  | .int n, _ => n
  | .bool b, _ => if b then 1 else 0
  | _, old => old

/-- Assign one value by its name; unknown names change nothing. -/
def assign (s : Settings) (name : String) (v : Literal) : Settings :=
  match name with
  | "JACOBIAN_EPSILON" => { s with epsilon := asFloat v s.epsilon }
  | "STOPPING_CRITERION" => { s with stopping := asFloat v s.stopping }
  | "MAX_ITERATIONS" => { s with maxIterations := asInt v s.maxIterations }
  | "ROUND_DIGITS" => { s with roundDigits := asInt v s.roundDigits }
  | "INITIAL_RANGE_OFFSET" => { s with rangeOffset := asFloat v s.rangeOffset }
  | "INITIAL_RANGE_WIDTH" => { s with rangeWidth := asFloat v s.rangeWidth }
  | "RANDOM_SEED" => { s with seed := match v with
      | .int n => some n
      | _ => none }
  | "VERIFY_TOLERANCE" => { s with tolerance := asFloat v s.tolerance }
  | "RETRY_SINGULAR_SUBSYSTEMS" => { s with retrySingular := v.truthy }
  | "SINGULAR_TOLERANCE" => { s with pivotTolerance := asFloat v s.pivotTolerance }
  | "RANDOM_MATRIX_LOW" => { s with randomLow := asFloat v s.randomLow }
  | "RANDOM_MATRIX_HIGH" => { s with randomHigh := asFloat v s.randomHigh }
  | "OUTPUT_PRECISION" => { s with precision := asInt v s.precision }
  | "MAX_INPUT_LENGTH" => { s with maxLength := asInt v s.maxLength }
  | "MAX_EXPRESSION_DEPTH" => { s with maxDepth := asInt v s.maxDepth }
  | "MAX_EXPRESSION_NODES" => { s with maxNodes := asInt v s.maxNodes }
  | "CACHE_SIZE_PARSE" => { s with cacheSize := asInt v s.cacheSize }
  | _ => s

/-- All values that can be assigned, under their names. -/
def toFields (s : Settings) : List (String × Literal) := [
  ("JACOBIAN_EPSILON", .float s.epsilon),
  ("STOPPING_CRITERION", .float s.stopping),
  ("MAX_ITERATIONS", .int s.maxIterations),
  ("ROUND_DIGITS", .int s.roundDigits),
  ("INITIAL_RANGE_OFFSET", .float s.rangeOffset),
  ("INITIAL_RANGE_WIDTH", .float s.rangeWidth),
  ("RANDOM_SEED", (s.seed.map Literal.int).getD .null),
  ("VERIFY_TOLERANCE", .float s.tolerance),
  ("RETRY_SINGULAR_SUBSYSTEMS", .bool s.retrySingular),
  ("SINGULAR_TOLERANCE", .float s.pivotTolerance),
  ("RANDOM_MATRIX_LOW", .float s.randomLow),
  ("RANDOM_MATRIX_HIGH", .float s.randomHigh),
  ("OUTPUT_PRECISION", .int s.precision),
  ("MAX_INPUT_LENGTH", .int s.maxLength),
  ("MAX_EXPRESSION_DEPTH", .int s.maxDepth),
  ("MAX_EXPRESSION_NODES", .int s.maxNodes),
  ("CACHE_SIZE_PARSE", .int s.cacheSize)]

/-- How the text of an environment variable is read. -/
inductive Reading
  | real
  | integer
  /-- An integer, or no value for an empty text. -/
  | optionalInteger
  /-- `true` in any case; all else is false. -/
  | switch

/-- The names in the order in which an environment is read. -/
def readings : List (String × Reading) := [
  ("JACOBIAN_EPSILON", .real), ("STOPPING_CRITERION", .real), ("MAX_ITERATIONS", .integer),
  ("ROUND_DIGITS", .integer), ("INITIAL_RANGE_OFFSET", .real), ("INITIAL_RANGE_WIDTH", .real),
  ("RANDOM_SEED", .optionalInteger), ("VERIFY_TOLERANCE", .real),
  ("RETRY_SINGULAR_SUBSYSTEMS", .switch), ("SINGULAR_TOLERANCE", .real),
  ("RANDOM_MATRIX_LOW", .real), ("RANDOM_MATRIX_HIGH", .real), ("OUTPUT_PRECISION", .integer),
  ("MAX_INPUT_LENGTH", .integer), ("MAX_EXPRESSION_DEPTH", .integer),
  ("MAX_EXPRESSION_NODES", .integer), ("CACHE_SIZE_PARSE", .integer)]

def readInteger (text : String) : Attempt Int :=
  match readInt text.toList with
  | .ok n => .ok n
  | .error .malformed => .error (.broken (.malformedInt text))
  | .error (.tooLong digits) => .error (.broken (.longInt (some digits)))

def Reading.read (r : Reading) (text : String) : Attempt Literal :=
  match r with
  | real => match readFloat? text.toList with
    | some x => .ok (.float x)
    | none => .error (.broken (.malformedFloat text))
  | integer => (readInteger text).map .int
  | optionalInteger => if text.isEmpty then .ok .null else (readInteger text).map .int
  | switch => .ok (.bool (lower text.toList == "true".toList))

/-- The defaults under an environment; each name there carries the prefix of the program. -/
def ofEnvironment (env : List (String × String)) : Attempt Settings :=
  readings.foldlM (fun s (name, r) =>
    match env.find? (·.1 == "EQSOLVER_" ++ name) with
    | none => .ok s
    | some (_, text) => (r.read text).map (s.assign name)) {}

end Settings

end Simultaneous
