import Simultaneous.Algebra.Order
import Simultaneous.Program.Code

/-!
The program of an expression: terms and factors in the order of writing, negative powers under one
bar, square roots by name. Constants keep their names, e among them.
-/

namespace Simultaneous.Program

open Algebra Algebra.Expr

def routineOf? : Fn → Option Routine
  | .abs => some .abs
  | .exp => some .exp
  | .log => some .log
  | .sin => some .sin
  | .cos => some .cos
  | .tan => some .tan
  | .asin => some .asin
  | .acos => some .acos
  | .atan => some .atan
  | .sinh => some .sinh
  | .cosh => some .cosh
  | .tanh => some .tanh
  | .factorial => some .factorial
  | .named _ => none

def numberCode : Number → Code
  | .rat q => if q.den == 1 then .whole q.num else .binary .div (.whole q.num) (.whole q.den)
  | .real x => .real x.printedFloat
  | .infinite neg => .named (Decimal.infinity neg)
  | _ => .named (0.0 / 0.0)

/-- A product of programs from left to right. -/
def chain (op : Operation) : List Code → Code
  | [] => .whole 1
  | c :: cs => cs.foldl (.binary op) c

/-- A sum of signed programs from left to right. -/
def signedSum : List (Bool × Code) → Code
  | [] => .whole 0
  | (neg, c) :: rest => rest.foldl (fun acc t => .binary (if t.1 then .sub else .add) acc t.2)
      (if neg then .neg c else c)

/-- A factor that goes below the bar: a negative rational power. -/
def inverted? : Expr → Option Expr
  | .power b (num (.rat q)) =>
    if q == -1 then some b else if q < 0 then some (.power b (ofRat (-q))) else none
  | _ => none

/-- The factors of a product in the order of writing, its sign apart. -/
def signedFactors (fs : List Expr) : Bool × List Expr :=
  if (Expr.product fs).coefficient.1.isNegative then
    (true, orderedFactors ((Expr.product fs).scale (-1)).factors)
  else (false, orderedFactors fs)

mutual

/-- The program of a term with its sign apart; `fuel` bounds the height. -/
def compileSigned : Nat → Expr → Bool × Code
  | 0, _ => (false, .named (0.0 / 0.0))
  | fuel + 1, x => match x with
    | num n => if n.isNegative then (true, numberCode n.neg) else (false, numberCode n)
    | .product fs =>
      let (neg, fs) := signedFactors fs
      let above := (fs.filter fun f => (inverted? f).isNone).map (compileWithin fuel)
      let below := (fs.filterMap inverted?).map (compileWithin fuel)
      let a := chain .mul above
      (neg, if below.isEmpty then a else .binary .div a (chain .mul below))
    | x => (false, compileWithin fuel x)

def compileWithin : Nat → Expr → Code
  | 0, _ => .named (0.0 / 0.0)
  | fuel + 1, x => match x with
    | num n => numberCode n
    | sym s => .name s
    | const .e => .name "e"
    | const .pi => .name "pi"
    | const .i => .unit
    | .sum ts => signedSum ((orderedTerms ts).map (compileSigned fuel))
    | .product fs => match compileSigned fuel (.product fs) with
      | (true, c) => .neg c
      | (false, c) => c
    | .power b x => match x with
      | num (.rat q) =>
        if q == half then .call .sqrt (compileWithin fuel b)
        else if q == -half then .binary .div (.whole 1) (.call .sqrt (compileWithin fuel b))
        else if q == -1 then .binary .div (.whole 1) (compileWithin fuel b)
        else .binary .pow (compileWithin fuel b) (numberCode (.rat q))
      | x => .binary .pow (compileWithin fuel b) (compileWithin fuel x)
    | .call f [x] => match routineOf? f with
      | some r => .call r (compileWithin fuel x)
      | none => .named (0.0 / 0.0)
    | .call _ _ => .named (0.0 / 0.0)

end

def compile (x : Expr) : Code := compileWithin (3 * x.height + 4) x

end Simultaneous.Program
