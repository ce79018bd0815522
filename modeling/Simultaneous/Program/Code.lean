import Simultaneous.Program.Value

/-!
Programs that compute a value from the values of names. The names of arguments go before the names
of the mathematical constants and functions, which share one space with them.
-/

namespace Simultaneous.Program

inductive Operation
  | add | sub | mul | div | pow
  deriving DecidableEq, Repr

inductive Routine
  | abs | sqrt | exp | log | sin | cos | tan | asin | acos | atan | sinh | cosh | tanh | factorial
  deriving DecidableEq, Repr

def Routine.name : Routine → String
  | abs => "abs"
  | sqrt => "sqrt"
  | exp => "exp"
  | log => "log"
  | sin => "sin"
  | cos => "cos"
  | tan => "tan"
  | asin => "asin"
  | acos => "acos"
  | atan => "atan"
  | sinh => "sinh"
  | cosh => "cosh"
  | tanh => "tanh"
  | factorial => "factorial"

inductive Code
  | whole (n : Int)
  | real (x : Float)
  /-- The imaginary unit. -/
  | unit
  /-- A number written out by name: `inf`, `-inf` or `nan`. -/
  | named (x : Float)
  | name (s : String)
  | neg (a : Code)
  | binary (op : Operation) (a b : Code)
  | call (f : Routine) (a : Code)
  deriving Inhabited

/-- What a name stands for, if it is bound. -/
abbrev Bindings := String → Option Value

def Operation.apply : Operation → Value → Value → Outcome Value
  | add => Value.add
  | sub => Value.sub
  | mul => Value.mul
  | div => Value.div
  | pow => Value.pow

def Routine.apply : Routine → Value → Outcome Value
  | abs => fun v => .ok v.abs
  | sqrt => Value.onReals Float.sqrt
  | exp => Value.onReals Float.exp
  | log => Value.log
  | sin => Value.onReals Float.sin
  | cos => Value.onReals Float.cos
  | tan => Value.onReals Float.tan
  | asin => Value.onReals Float.asin
  | acos => Value.onReals Float.acos
  | atan => Value.onReals Float.atan
  | sinh => Value.onReals Float.sinh
  | cosh => Value.onReals Float.cosh
  | tanh => Value.onReals Float.tanh
  | factorial => Value.factorial

/-- The constants that have names. -/
def constant? (s : String) : Option Value :=
  if s == "e" then some (.real 2.718281828459045)
  else if s == "pi" then some (.real 3.141592653589793)
  else none

/-- An argument first, then a constant. -/
def lookUp (env : Bindings) (s : String) : Value :=
  ((env s).orElse fun _ => constant? s).getD (.real (0.0 / 0.0))

/-- A routine can be called unless an argument has taken its name. -/
def checkCallable (env : Bindings) (name : String) : Outcome Unit :=
  match env name with
  | some v => .error (.notCallable v.kind)
  | none => .ok ()

namespace Code

def run (env : Bindings) : Code → Outcome Value
  | whole n => .ok (.whole n)
  | real x => .ok (.real x)
  | unit => .ok (.complex 0 1)
  | named x => do
    checkCallable env "float"
    return .real x
  | name s => .ok (lookUp env s)
  | neg a => return (← a.run env).neg
  | binary op a b => do
    let x ← a.run env
    let y ← b.run env
    op.apply x y
  | call f a => do
    let x ← a.run env
    checkCallable env f.name
    f.apply x

/-- The largest integer that is written out. -/
def wholeLimit : Nat := Nat.pow 10 4300

/-- All integers are short enough to be written out. -/
def isWritable : Code → Bool
  | whole n => n.natAbs < wholeLimit
  | neg a | call _ a => a.isWritable
  | binary _ a b => a.isWritable && b.isWritable
  | _ => true

end Code

/-- The value of a program as a finite or infinite double; a complex number counts as its real part
when it has no other. -/
def realResult (v : Value) : Outcome Float :=
  match v with
  | .complex a b => if b == 0 then .ok a else .error (.complexResult a b)
  | v => v.toReal

end Simultaneous.Program
