import Simultaneous.Formula.Datum
import Simultaneous.Algebra.Printer

/-!
Signs applied to data. Expressions have arithmetic; integers also have bits, symbols also have
logic, and collections can be joined and repeated.
-/

namespace Simultaneous.Formula

open Algebra

namespace Datum

/-- The whole part of the quotient of real numbers, for `b` not zero. -/
def floorOf (a b : Rat) : Int := (a / b).floor

def floorConst? (x : Expr) : Option Int :=
  if x.hasSymbol then none
  else match x with
    | .num n => n.floor?
    | x => if x.isRealConst then x.approx.map fun a =>
        if a.re < 0 then -((-a.re).ceil.toUInt64.toNat : Int) else a.re.floor.toUInt64.toNat
      else none

def floorQuotient (a b : Expr) : Meaning Expr :=
  match a, b with
  | .num (.rat p), .num (.rat q) =>
    if q == 0 then
      .error (.broken (if p.den == 1 then .quotientByZero else .divisionByZeroNumber))
    else .ok (.ofInt (floorOf p q))
  | .num m, .num n => match m.toRat?, n.toRat? with
    | some p, some q =>
      if q == 0 then .error (.broken .divisionByZeroNumber) else .ok (.ofInt (floorOf p q))
    | _, _ => .ok .nan
  | a, b =>
    let q := a.div b
    match floorConst? q with
    | some n => .ok (.ofInt n)
    | none => .ok (if q.same .nan then q else .call (.named "floor") [q])

/-- A rounded number by zero: one below a half stays. -/
def remainderByZero (x : Rounded) : Meaning Expr :=
  if x.mant != 0 && !x.isNegative && x.exp + Rounded.bitLength x.mant.natAbs < 0 then
    .ok (.num (.real x))
  else .error (.broken .remainderByZero)

def remainder (a b : Expr) : Meaning Expr :=
  match a, b with
  | .num (.rat p), .num (.rat q) =>
    if q == 0 then .error (.broken (if p.den == 1 then .remainderByZero else .quotientByZero))
    else .ok (.ofRat (p - floorOf p q * q))
  | .num (.real x), .num n => match n.toRat? with
    | some q =>
      if q == 0 then remainderByZero x
      else .ok (.num (.ofRounded (.ofRat x.prec (x.toRat - floorOf x.toRat q * q))))
    | none => .ok .nan
  | .num (.rat p), .num (.real y) =>
    if y.isZero then .error (.broken .remainderByZero)
    else .ok (.num (.ofRounded (.ofRat y.prec (p - floorOf p y.toRat * y.toRat))))
  | a, b =>
    if b.isZero then .error (.broken .moduloByZero)
    else
      let q := a.div b
      match floorConst? q with
      | some n => .ok (a.sub ((Expr.ofInt n).mul b))
      | none => .ok (.call (.named "Mod") [a, b])

def arithmetic (op : BinarySign) (a b : Expr) : Meaning Datum :=
  match op with
  | .add => .ok (.expr (a.add b))
  | .sub => .ok (.expr (a.sub b))
  | .mul => .ok (.expr (a.mul b))
  | .div => .ok (.expr (a.div b))
  | .pow => .ok (.expr (a.pow b))
  | .floorDiv => (floorQuotient a b).map .expr
  | .mod => (remainder a b).map .expr
  | _ => senseless

/-- Bits of integers in two's complement. -/
def bitwise (op : BinarySign) (m n : Int) : Meaning Int :=
  let width := max (Nat.log2 m.natAbs) (Nat.log2 n.natAbs) + 2
  let wrap (k : Int) : Nat := (k % (Nat.pow 2 width : Nat)).natAbs
  let unwrap (k : Nat) : Int :=
    if k < Nat.pow 2 (width - 1) then k else (k : Int) - (Nat.pow 2 width : Nat)
  match op with
  | .both => .ok (unwrap (wrap m &&& wrap n))
  | .either => .ok (unwrap (wrap m ||| wrap n))
  | .exclusive => .ok (unwrap (wrap m ^^^ wrap n))
  | .shiftLeft => if n < 0 || 1000000 < n then senseless else .ok (m * (Nat.pow 2 n.natAbs : Nat))
  | .shiftRight =>
    if n < 0 then senseless else .ok (m.fdiv (Nat.pow 2 (min n.natAbs 1000000) : Nat))
  | _ => senseless

def isLogical : Datum → Bool
  | expr (.sym _) | relation _ | logic _ _ | verdict _ | truth _ => true
  | _ => false

def settled? : Datum → Option Bool
  | verdict b | truth b => some b
  | _ => none

/-- The negation of a symbol is that symbol's opposite. -/
def isOpposite (a b : Datum) : Bool :=
  match a, b with
  | logic _ (some x), expr y | expr y, logic _ (some x) => x.same y
  | _, _ => false

/-- A combination of two statements whose neutral and deciding values are known. -/
def joinLogic (kind : String) (deciding : Bool) (a b : Datum) : Datum :=
  match settled? a, settled? b with
  | some p, some q =>
    verdict (if deciding then p || q else p && q)
  | some p, none => if p == deciding then verdict p else b
  | none, some q => if q == deciding then verdict q else a
  | none, none =>
    if a.same b then a
    else if isOpposite a b then verdict deciding
    else logic kind none

def implication (a b : Datum) : Datum :=
  match settled? a, settled? b with
  | some false, _ | _, some true => verdict true
  | some true, _ => match settled? b with
    | some q => verdict q
    | none => b
  | none, _ => if a.same b then verdict true else logic "Implies" none

def logical (op : BinarySign) (a b : Datum) : Meaning Datum :=
  if !isLogical a || !isLogical b then senseless
  else match op with
    | .both => .ok (joinLogic "And" false a b)
    | .either => .ok (joinLogic "Or" true a b)
    | .shiftRight => .ok (implication a b)
    | .shiftLeft => .ok (implication b a)
    | _ => senseless

def isBitwise : BinarySign → Bool
  | .both | .either | .exclusive | .shiftLeft | .shiftRight => true
  | _ => false

/-- Whether an exact integer takes part in a sign together with a truth value. -/
def joinsTruth : BinarySign → Bool
  | .add | .sub | .mul | .floorDiv | .mod => true
  | op => isBitwise op

def repeated (n : Int) (xs : List Datum) : Meaning (List Datum) :=
  if 100000 < n * xs.length then senseless
  else .ok (List.replicate n.toNat xs).flatten

/-- Collections and texts joined or repeated. -/
def collected (op : BinarySign) (a b : Datum) : Meaning Datum :=
  match op, a, b with
  | .add, text s, text t => .ok (text (s ++ t))
  | .add, tuple xs, tuple ys => .ok (tuple (xs ++ ys))
  | .add, list xs, list ys => .ok (list (xs ++ ys))
  | .mul, text s, b => match b.int? with
    | some n => .ok (text (String.join (List.replicate (min n.toNat 10000) s)))
    | none => senseless
  | .mul, tuple xs, b => match b.int? with
    | some n => (repeated n xs).map tuple
    | none => senseless
  | .mul, list xs, b => match b.int? with
    | some n => (repeated n xs).map list
    | none => senseless
  | .either, set xs, set ys => .ok (set (xs ++ ys))
  | .either, record xs, record ys => .ok (record (xs ++ ys))
  | _, _, _ => senseless

def isCollection : Datum → Bool
  | text _ | tuple _ | list _ | set _ | record _ => true
  | _ => false

def isExactInt : Datum → Bool
  | expr (.num n) => n.isInt
  | _ => false

/-- An integer that is no expression: a written one or a truth value. -/
def loose? : Datum → Option Int
  | int n => some n
  | truth b => some (if b then 1 else 0)
  | _ => none

def isTruth : Datum → Bool
  | truth _ => true
  | _ => false

/-- Signs between integers that are no expressions. -/
def wholes (op : BinarySign) (m n : Int) : Meaning Datum :=
  match op with
  | .add => .ok (int (m + n))
  | .sub => .ok (int (m - n))
  | .mul => .ok (int (m * n))
  | .floorDiv => if n == 0 then .error (.broken .quotientByZero) else .ok (int (m.fdiv n))
  | .mod => if n == 0 then .error (.broken .remainderByZero) else .ok (int (m.fmod n))
  | .pow => if n < 0 then senseless else .ok (int (Int.pow m n.toNat))
  | op => (bitwise op m n).map int

def asExact (n : Int) : Datum := expr (.ofInt n)

/-- A sign between expressions of which some part is none. -/
def mixedArithmetic (op : BinarySign) (a b : Tree) : Meaning Datum :=
  match op with
  | .add | .mul | .pow => mixture (.compound [a, b])
  | .sub => mixture (.compound [a, .compound [.atom, b]])
  | .div => mixture (.compound [a, .compound [b, .atom]])
  | .floorDiv => mixture (.call "floor" [.compound [a, .compound [b, .atom]]])
  | .mod => mixture (.call "Mod" [a, b])
  | _ => senseless

def expressions (op : BinarySign) (a b : Datum) : Meaning Datum :=
  match a, b with
  | expr x, expr y =>
    if isBitwise op then match a.int?, b.int? with
      | some m, some n => (bitwise op m n).map asExact
      | _, _ => logical op a b
    else arithmetic op x y
  | mixed m, expr y => mixedArithmetic op m.tree (.ofExpr y)
  | expr x, mixed n => mixedArithmetic op (.ofExpr x) n.tree
  | mixed m, mixed n => mixedArithmetic op m.tree n.tree
  | a, b => if isBitwise op then logical op a b else senseless

/-- A binary sign applied to data. A truth value counts as an integer beside integers only. -/
def binary (op : BinarySign) (a b : Datum) : Meaning Datum :=
  if isCollection a then collected op a b
  else if isCollection b then if op == .mul then collected op b a else senseless
  else match loose? a, loose? b with
    | some m, some n =>
      if isTruth a && isTruth b && (op == .both || op == .either) then
        (bitwise op m n).map fun k => truth (k != 0)
      else wholes op m n
    | some m, none =>
      if isTruth a && !(isExactInt b && joinsTruth op) then
        if isBitwise op then logical op a b else senseless
      else expressions op (asExact m) b
    | none, some n =>
      if isTruth b && !(isExactInt a && joinsTruth op) then
        if isBitwise op then logical op a b else senseless
      else expressions op a (asExact n)
    | none, none => expressions op a b

def unary (op : UnarySign) (a : Datum) : Meaning Datum :=
  match op, a with
  | .plus, expr e => .ok (expr e)
  | .minus, expr e => .ok (expr e.negate)
  | .plus, mixed m => .ok (mixed m)
  | .minus, mixed m => mixture (.compound [.atom, m.tree])
  | .invert, expr (.sym s) => .ok (logic "Not" (some (.sym s)))
  | .invert, logic "Not" (some e) => .ok (expr e)
  | .invert, logic _ _ => .ok (logic "Not" none)
  | .invert, verdict b => .ok (verdict !b)
  | .invert, relation k => .ok (relation (opposite k))
  | op, a => match op, a.int? with
    | .plus, some n => .ok (int n)
    | .minus, some n => .ok (int (-n))
    | .invert, some n => .ok (if isExactInt a then asExact (-n - 1) else int (-n - 1))
    | _, none => senseless
where
  opposite (k : String) : String :=
    if k == "StrictLessThan" then "GreaterThan"
    else if k == "StrictGreaterThan" then "LessThan"
    else if k == "LessThan" then "StrictGreaterThan"
    else "StrictLessThan"

/-- An order between expressions: settled for real constants, left open with symbols. -/
def compareExprs (r : Relation) (kind : String) (a b : Expr) : Meaning Datum :=
  let isUnordered (x : Expr) : Bool := !x.hasSymbol && match x with
    | .num n => n == .pole || n == .undefined
    | x => x.sign? == some .notReal
  if isUnordered a || isUnordered b then senseless
  else
    let settle (o : Ordering) : Datum := verdict (match r with
      | .less => o == .lt
      | .lessEqual => o != .gt
      | .greater => o == .gt
      | _ => o != .lt)
    if !a.hasSymbol && !b.hasSymbol then
      match a, b with
      | .num m, .num n => .ok (settle (if m.lt n then .lt else if n.lt m then .gt else .eq))
      | a, b => match (a.sub b).sign? with
        | some .negative => .ok (settle .lt)
        | some .positive => .ok (settle .gt)
        | _ => .ok (settle .eq)
    else if a.isReal && b.isReal then
      if (a.sub b).isNonneg && (r == .less || r == .greaterEqual) then
        .ok (verdict (r == .greaterEqual))
      else if (b.sub a).isNonneg && (r == .greater || r == .lessEqual) then
        .ok (verdict (r == .lessEqual))
      else .ok (relation kind)
    else .ok (relation kind)

def compareOrder (r : Relation) (kind : String) (a b : Datum) : Meaning Datum :=
  let bySize (m n : Int) : Datum := truth (match r with
    | .less => m < n
    | .lessEqual => m ≤ n
    | .greater => n < m
    | _ => n ≤ m)
  match a, b with
  | expr x, expr y => compareExprs r kind x y
  | expr x, int n => compareExprs r kind x (.ofInt n)
  | int m, expr y => compareExprs r kind (.ofInt m) y
  | text s, text t => .ok (truth (match r with
    | .less => s < t
    | .lessEqual => s ≤ t
    | .greater => t < s
    | _ => t ≤ s))
  | tuple _, tuple _ | list _, list _ | set _, set _ => .ok (truth (a.same b))
  | a, b => match loose? a, loose? b with
    | some m, some n => .ok (bySize m n)
    | _, _ => senseless

def isMember (a b : Datum) : Meaning Bool :=
  match a, b with
  | text s, text t => .ok (Text.occursIn s.toList t.toList)
  | _, text _ => senseless
  | a, b => match b.members? with
    | some xs => .ok (xs.any a.same)
    | none => senseless

def compare (r : Relation) (a b : Datum) : Meaning Datum :=
  match r with
  | .equal | .isSame => .ok (truth (a.same b))
  | .unequal | .isOther => .ok (truth !(a.same b))
  | .less => compareOrder r "StrictLessThan" a b
  | .lessEqual => compareOrder r "LessThan" a b
  | .greater => compareOrder r "StrictGreaterThan" a b
  | .greaterEqual => compareOrder r "GreaterThan" a b
  | .isIn => (isMember a b).map truth
  | .isNotIn => (isMember a b).map fun m => truth !m

end Datum

end Simultaneous.Formula
