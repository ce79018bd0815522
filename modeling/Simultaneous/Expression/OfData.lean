import Simultaneous.Expression

/-!
Expressions of data: a number stands for itself, a text for the expression it spells. Truth values,
lists and records are no expressions; in a refusal they are shown with their parts read in the same
way.
-/

namespace Simultaneous

open Algebra Formula Text

/-- The number of a double, to 53 bits. -/
def Algebra.Number.ofFloat (x : Float) : Number :=
  match Rounded.ofFloat? 53 x with
  | some r => .real r
  | none => if x.isNaN then .undefined else .infinite (x < 0)

namespace Expression

mutual

/-- How a datum that is no expression is shown, where it has a form of its own. -/
def datumText? : Datum → Option String
  | .expr e => some e.text
  | .nothing => some "None"
  | .truth b | .verdict b => some (if b then "True" else "False")
  | .int n => some (toString n)
  | .text s => some (quoted s)
  | .tuple [d] => (datumText? d).map fun t => "(" ++ t ++ ",)"
  | .tuple ds => (datumTexts? ds).map fun ts => "(" ++ join ", " ts ++ ")"
  | .list ds => (datumTexts? ds).map fun ts => "[" ++ join ", " ts ++ "]"
  | _ => none

def datumTexts? : List Datum → Option (List String)
  | [] => some []
  | d :: ds => do
    let t ← datumText? d
    let ts ← datumTexts? ds
    return t :: ts

end

/-- What a text spells, a caret read as a power and all other signs as they stand. -/
def spelled? (s : String) : Attempt (Option Datum) :=
  match datumOf (s.toList.flatMap fun c => if c == '^' then ['*', '*'] else [c]) with
  | .ok d => .ok (some d)
  | .error (.broken b) => .error (.broken b)
  | .error _ => .ok none

mutual

/-- How a value is shown once its texts are read as expressions. -/
def readBack? : Literal → Option String
  | .str s => match spelled? s with
    | .ok (some d) => datumText? d
    | _ => none
  | .float x => some (Expr.num (.ofFloat x)).text
  | .list items => (readBackItems? items).map fun ts => "[" ++ join ", " ts ++ "]"
  | .record fields => (readBackFields? fields).map fun ts =>
      "\x7b" ++ join ", " (sortBy (fun a b => decide (a < b)) ts) ++ "\x7d"
  | v => some v.shown

def readBackItems? : List Literal → Option (List String)
  | [] => some []
  | v :: vs => do
    let t ← readBack? v
    let ts ← readBackItems? vs
    return t :: ts

def readBackFields? : List (String × Literal) → Option (List String)
  | [] => some []
  | (k, v) :: fs => do
    let k ← readBack? (.str k)
    let t ← readBack? v
    let ts ← readBackFields? fs
    return (k ++ ": " ++ t) :: ts

end

/-- The expression of a number or of a text. -/
def ofLiteral (v : Literal) : Attempt Expression :=
  match v with
  | .int n => .ok (wrap (.ofInt n))
  | .float x => .ok (wrap (.num (.ofFloat x)))
  | .str s => do
    match ← spelled? s with
    | some (.expr e) => return wrap e
    | some d => .error (.refused (((datumText? d).map .notScalar).getD (.notUsable v.shown)))
    | none => .error (.refused (.notUsable v.shown))
  | v => match readBack? v with
    | some t => .error (.refused (.notScalar t))
    | none => .error (.refused (.notUsable v.shown))

/-- The same for a constant, where a truth value counts as a number under its own name. -/
def constant (v : Literal) : Attempt Expression :=
  match v with
  | .bool b => .ok (ofTree (.ofInt (if b then 1 else 0)) [] v.shown)
  | .null | .list _ | .record _ => .error (.broken (.noAttribute v.kind "free_symbols"))
  | v => ofLiteral v

end Expression

end Simultaneous
