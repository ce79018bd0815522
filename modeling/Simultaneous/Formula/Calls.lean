import Simultaneous.Formula.Arithmetic

/-!
Calls and selections: functions of expressions, the makers of symbols and numbers, unknown
functions, and the parts of collections.
-/

namespace Simultaneous.Formula

open Algebra

namespace Datum

/-- The expression that a datum is as an argument of a function. -/
def argument? : Datum → Option Expr
  | expr e => some e
  | int n => some (.ofInt n)
  | _ => none

/-- Whether a function stays as it is in front of an argument that is no plain expression; the
others ask such an argument for its sign or its parts. -/
def staysBefore (f : Fn) : Datum → Bool
  | mixed _ => true
  | callable _ => f == .factorial
  | _ => f == .exp || f == .factorial

def callFunction (f : Fn) (args : List Datum) : Meaning Datum :=
  match f, args.mapM argument? with
  | f, some [x] => .ok (expr (Expr.apply f x))
  | .log, some [x, b] => .ok (expr (Expr.logBase x b))
  | f, _ => match args with
    | [a] => match a.operand? with
      | some t => if staysBefore f a then mixture (.call f.name [t]) else senseless
      | none => senseless
    | _ => senseless

/-- The square root; a second argument says whether to simplify. -/
def callSqrt : List Datum → Meaning Datum
  | [a] => root a
  | [a, nothing] => root a
  | [a, evaluate] => do
    if ← evaluate.truthy then root a
    else match a, a.argument? with
      | _, some x => .ok (expr (.power x (.ofRat Expr.half)))
      | relation _, none | callable _, none => senseless
      | a, none => unopened a
  | _ => senseless
where
  root (a : Datum) : Meaning Datum :=
    match a, a.argument? with
    | _, some x => .ok (expr (x.pow (.ofRat Expr.half)))
    | mixed m, none => unopened (mixed m)
    | _, none => senseless
  unopened (a : Datum) : Meaning Datum :=
    match a.operand? with
    | some t => mixture (.compound [t, .atom])
    | none => senseless

def truncate (q : Rat) : Int := if q < 0 then -((-q).floor) else q.floor

def callInteger : List Datum → Meaning Datum
  | [expr (.num n)] => match n.toRat? with
    | some q => .ok (asExact (truncate q))
    | none => senseless
  | [expr x] =>
    if x.hasSymbol || !x.isRealConst then senseless
    else match floorConst? x with
      | some n => .ok (asExact (if n < 0 then n + 1 else n))
      | none => senseless
  | [text s] => match Decimal.readInt (s.toList.filter (· != ' ')) with
    | .ok n => .ok (asExact n)
    | .error _ => senseless
  | [a] => match loose? a with
    | some n => .ok (asExact n)
    | none => senseless
  | _ => senseless

def floatOfText (s : String) : Meaning Datum :=
  let (neg, cs) := Decimal.takeSign (s.toList.filter (· != ' '))
  match Rounded.ofDecimal? cs with
  | some r => .ok (expr (.num (.real (if neg then r.neg else r))))
  | none =>
    let word := String.ofList (Text.lower cs)
    if word == "inf" || word == "infinity" then .ok (expr (.num (.infinite neg)))
    else if word == "nan" then .ok (expr .nan)
    else senseless

def floatOf (prec : Nat) : Datum → Meaning Datum
  | expr (.num n) => match n with
    | .real r => .ok (expr (.num (.real (.make prec r.mant r.exp))))
    | .rat q => .ok (expr (.num (.real (.ofRat prec q))))
    | n => .ok (expr (.num n))
  | a => match loose? a with
    | some n => .ok (expr (.num (.real (.ofRat prec n))))
    | none => senseless

def callFloat : List Datum → Meaning Datum
  | [text s] => floatOfText s
  | [a] => floatOf 53 a
  | [a, digits] => match digits.int? with
    | some k => if k < 1 || 100000 < k then senseless else match a with
      | text s => (floatOfText s).bind (floatOf (Rounded.bitsFor k.toNat))
      | a => floatOf (Rounded.bitsFor k.toNat) a
    | none => senseless
  | _ => senseless

/-- A decimal or a fraction from text. -/
def rationalText? (s : String) : Option Rat :=
  let decimal? (cs : List Char) : Option Rat :=
    let (neg, cs) := Decimal.takeSign cs
    ((Decimal.dropUnderscores? none cs).bind Decimal.readScientific?).bind fun d =>
      if 5000 < d.exponent.natAbs then none
      else
        let q : Rat := if 0 ≤ d.exponent then (d.mantissa * Nat.pow 10 d.exponent.toNat : Nat)
          else mkRat d.mantissa (Nat.pow 10 (-d.exponent).toNat)
        some (if neg then -q else q)
  match Text.pieces (· == '/') (s.toList.filter (· != ' ')) with
  | [a] => decimal? a
  | [a, b] => do
    let p ← decimal? a
    let q ← decimal? b
    if q == 0 then none else some (p / q)
  | _ => none

def rational? : Datum → Option Rat
  | expr (.num n) => n.toRat?
  | text s => rationalText? s
  | a => (loose? a).map fun n => (n : Rat)

def callRational (args : List Datum) : Meaning Datum :=
  match args with
  | [expr (.num n)] => if n.toRat?.isNone then .ok (expr (.num n)) else one args
  | args => one args
where
  one (args : List Datum) : Meaning Datum :=
    match args.mapM rational? with
    | some [p] => .ok (expr (.ofRat p))
    | some [p, q] | some [p, q, _] =>
      .ok (expr (if q == 0 then if p == 0 then .nan else .pole else .ofRat (p / q)))
    | _ => senseless

def callDatum (f : Callable) (args : List Datum) : Meaning Datum :=
  match f with
  | .function f => callFunction f args
  | .sqrt => callSqrt args
  | .symbol => match args with
    | [text s] => .ok (expr (.sym s))
    | _ => senseless
  | .integer => callInteger args
  | .float => callFloat args
  | .rational => callRational args
  | .maker => match args with
    | [text s] => .ok (callable (.unknown s))
    | [expr (.sym s)] => .ok (callable (.unknown s))
    | _ => senseless
  | .unknown s =>
    if args.any fun a => match a with
      | callable (.unknown _) => true
      | _ => false then senseless
    else
      let operands := args.filterMap operand?
      if Tree.allScalar operands then .ok (expr (.call (.named s) (args.filterMap argument?)))
      else mixture (.call s operands)

/-- The member at an index; negative ones count from the end. -/
def memberAt (container : String) (xs : List Datum) (i : Int) : Meaning Datum :=
  let k := if i < 0 then i + xs.length else i
  if k < 0 then .error (.broken (.indexOutOfRange container))
  else match xs[k.toNat]? with
    | some x => .ok x
    | none => .error (.broken (.indexOutOfRange container))

def keyText : Datum → String
  | expr e => e.text
  | text s => Text.quoted s
  | int n => toString n
  | truth b => if b then "True" else "False"
  | nothing => "None"
  | a => a.kind

def itemAt (a index : Datum) : Meaning Datum :=
  match a, index with
  | tuple _, slice | list _, slice | text _, slice => .ok a
  | tuple xs, i => match i.int? with
    | some k => memberAt "tuple" xs k
    | none => senseless
  | list xs, i => match i.int? with
    | some k => memberAt "list" xs k
    | none => senseless
  | text s, i => match i.int? with
    | some k => memberAt "string" (s.toList.map fun c => text (String.singleton c)) k
    | none => senseless
  | record es, k =>
    if !k.isHashable then senseless
    else match es.reverse.find? fun e => k.same e.1 with
      | some e => .ok e.2
      | none => .error (.broken (.missingKey (keyText k)))
  | _, _ => senseless

/-- The names that stand for data. -/
def named? (s : String) : Option Datum :=
  match s with
  | "pi" => some (expr .pi)
  | "E" => some (expr .e)
  | "sqrt" => some (callable .sqrt)
  | "sin" => some (callable (.function .sin))
  | "cos" => some (callable (.function .cos))
  | "tan" => some (callable (.function .tan))
  | "asin" => some (callable (.function .asin))
  | "acos" => some (callable (.function .acos))
  | "atan" => some (callable (.function .atan))
  | "sinh" => some (callable (.function .sinh))
  | "cosh" => some (callable (.function .cosh))
  | "tanh" => some (callable (.function .tanh))
  | "log" | "ln" => some (callable (.function .log))
  | "exp" => some (callable (.function .exp))
  | "Abs" | "abs" => some (callable (.function .abs))
  | "factorial" => some (callable (.function .factorial))
  | "Symbol" => some (callable .symbol)
  | "Integer" => some (callable .integer)
  | "Float" => some (callable .float)
  | "Rational" => some (callable .rational)
  | "Function" => some (callable .maker)
  | _ => none

end Datum

end Simultaneous.Formula
