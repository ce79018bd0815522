import Simultaneous.Equation
import Simultaneous.Expression.OfData

/-!
Equations as callers give them: a text with or without an equals sign, a pair of sides, or a single
side that is to be zero. A side is a text, a number, or an expression that exists already.
-/

namespace Simultaneous

open Algebra Formula Text

namespace Equation

/-- One side of an equation. -/
inductive Side
  | data (v : Literal)
  | expression (e : Expression)

/-- An equation as it is given. -/
inductive Given
  /-- Two sides around an equals sign, or one side that is to be zero. -/
  | text (s : String)
  | sides (left right : Side)
  /-- A side that is to be zero. -/
  | bare (side : Side)
  /-- Some number of sides other than two. -/
  | several (count : Nat)
  | other (shown : String)

/-- What data stand for: a text is an equation, a list of two is a pair of sides. -/
def Given.ofLiteral : Literal → Given
  | .str s => text s
  | .list [a, b] => sides (.data a) (.data b)
  | .list items => several items.length
  | v => other v.shown

/-- Expressions in a row: two are the sides of an equation. -/
def Given.ofExpressions : List Expression → Given
  | [a, b] => sides (.expression a) (.expression b)
  | es => several es.length

/-- Whether two trees are known to be equal or unequal: their difference is a number. -/
def settled? (a b : Expr) : Option Bool :=
  if a.same b then some true
  else match a.sub b with
    | .num n => some n.isZero
    | d => if d.hasSymbol then none else d.approx.map fun z => z.re == 0 && z.im == 0

/-- The equation of two trees, unless it is settled whether they are equal. -/
def Given.equating (a b : Expr) : Given :=
  match settled? a b with
  | some holds => other (Literal.bool holds).shown
  | none => sides (.expression (.wrap a)) (.expression (.wrap b))

def Side.read (limits : Settings) : Side → Attempt Expression
  | expression e => .ok e
  | data (.str s) => Expression.parse limits s.toList
  | data v => Expression.ofLiteral v

/-- The equation that is given. -/
def Given.read (limits : Settings) : Given → Attempt Equation
  | text s => match pieces (· == '=') s.toList with
    | [a] => do
      let a ← Expression.parse limits a
      return ⟨a, .zero⟩
    | [a, b] => do
      let a ← Expression.parse limits a
      let b ← Expression.parse limits b
      return ⟨a, b⟩
    | _ => .error (.refused (.manyEquals (String.ofList (trim s.toList))))
  | sides a b => do
    let a ← a.read limits
    let b ← b.read limits
    return ⟨a, b⟩
  | bare a => do
    let a ← a.read limits
    return ⟨a, .zero⟩
  | several n => .error (.refused (.notPair n))
  | other shown => .error (.refused (.unsupported shown))

end Equation

end Simultaneous
