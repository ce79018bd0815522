import Simultaneous.Algebra.Simplify.Basic

/-!
Canonical products: nested products are opened, numbers are multiplied, powers of one base are
combined, roots of numbers are brought together.
-/

namespace Simultaneous.Algebra

/-- A base with an exponent split into a number and the rest. -/
structure Grade where
  base : Expr
  times : Number
  of : Expr

/-- The root of a number, with the exponent below one. -/
structure Radical where
  base : Number
  exponent : Rat

/-- The factors of a product sorted by kind. -/
structure Parts where
  coeff : Number := 1
  /-- The exponent of minus one. -/
  turn : Rat := 0
  powers : List (Expr × Expr) := []
  /-- Positive numbers with symbolic exponents. -/
  numeric : List (Expr × Expr) := []
  radicals : List Radical := []

namespace Simplifier

open Expr

def orderGrades (a b : Grade) : Bool :=
  match order a.base b.base with
  | .lt => true
  | .eq => order a.of b.of == .lt
  | .gt => false

/-- Add up the exponents of equal bases, as far as they are multiples of one another. -/
def gather (s : Simplifier) (ps : List (Expr × Expr)) : List (Expr × Expr) :=
  let grades : List Grade := ps.map fun (b, x) => let (n, y) := x.coefficient; ⟨b, n, y⟩
  let joined := joinRuns (fun a b => a.base.same b.base && a.of.same b.of)
    (fun a b => ⟨a.base, a.times.add b.times, a.of⟩) (sortBy orderGrades grades)
  joined.map fun g =>
    (g.base, if g.of.isOne then num g.times else s.product [num g.times, g.of])

/-- A root of a number in the denominator is simplified before it is sorted in. -/
def expandRoot (s : Simplifier) (x : Expr) : List Expr :=
  match x with
  | .power (num b) (num (.rat q)) =>
    if q < 0 && q.den != 1 then (s.power (num b) (ofRat q)).factors else [x]
  | x => [x]

def Parts.addPower (p : Parts) (b x : Expr) : Parts := { p with powers := p.powers ++ [(b, x)] }

def sortFactor (s : Simplifier) (p : Parts) (x : Expr) : Parts :=
  match x with
  | num n => { p with coeff := p.coeff.mul n }
  | const .i => { p with turn := p.turn + half }
  | .power _ _ =>
    match x.baseExp with
    | (num b, num (.rat q)) =>
      if q.den == 1 then match s.power (num b) (ofRat q) with
        | num n => { p with coeff := p.coeff.mul n }
        | y => Parts.addPower p y 1
      else
        let p := if b.isNegative then { p with turn := p.turn + q } else p
        let b := if b.isNegative then b.neg else b
        if b.isOne then p else { p with radicals := p.radicals ++ [⟨b, q⟩] }
    | (num b, e) =>
      if b.isPositive then { p with numeric := p.numeric ++ [(num b, e)] }
      else Parts.addPower p (num b) e
    | (b, e) => Parts.addPower p b e
  | x => let (b, e) := x.baseExp; Parts.addPower p b e

/-- Powers evaluated: the numbers among them, the other factors, and the pairs they came from with
their new bases. -/
structure Evaluated where
  coeff : Number
  factors : List Expr
  pairs : List (Expr × Expr)
  changed : Bool

def evaluatePower (s : Simplifier) (r : Evaluated) (p : Expr × Expr) : Evaluated :=
  let (b, e) := p
  match e with
  | num n =>
    if n.isZero then r
    else if n.isOne then match b with
      | num m => { r with coeff := r.coeff.mul m }
      | b => { r with factors := r.factors ++ [b], pairs := r.pairs ++ [(b, e)] }
    else general r b e
  | e => general r b e
where
  general (r : Evaluated) (b e : Expr) : Evaluated :=
    let y := s.power b e
    let (b', e') := if y.isPower && !b.isPower then y.baseExp else (b, e)
    { r with
      factors := r.factors ++ [y], pairs := r.pairs ++ [(b', e')]
      changed := r.changed || !b'.same b }

def allDistinct (xs : List Expr) : Bool := (distinct xs).length == xs.length

/-- Evaluate all powers; a base that turned into another one is gathered once more. -/
def evaluatePowers (s : Simplifier) (coeff : Number) (ps : List (Expr × Expr)) :
    Number × List Expr :=
  let r := ps.foldl s.evaluatePower ⟨coeff, [], [], false⟩
  if r.changed && !allDistinct (r.pairs.map (·.1)) then
    let r := (s.gather r.pairs).foldl s.evaluatePower ⟨r.coeff, [], [], false⟩
    (r.coeff, r.factors)
  else (r.coeff, r.factors)

/-- Numbers under equal symbolic exponents become one power. -/
def joinNumeric (s : Simplifier) (ps : List (Expr × Expr)) : List Expr :=
  let joined := joinRuns (fun a b => a.2.same b.2) (fun a b => (s.product [a.1, b.1], a.2))
    (sortBy (fun a b => order a.2 b.2 == .lt) ps)
  (joined.filter (!·.2.isZero)).map fun (b, e) => s.power b e

/-- The whole part of an exponent is taken out as a factor. -/
def splitWhole (s : Simplifier) (coeff : Number) (b : Number) (e : Rat) :
    Number × Option Radical :=
  let whole := e.floor
  let rest := e - whole
  let coeff := if whole == 0 then coeff else match s.power (num b) (ofInt whole) with
    | num n => coeff.mul n
    | _ => coeff
  (coeff, if rest == 0 || b.isOne then none else some ⟨b, rest⟩)

def addRational (a b : Radical) : Radical := ⟨a.base, a.exponent + b.exponent⟩

/-- Roots of the same number are joined, then numbers under the same exponent. -/
def joinRadicals (s : Simplifier) (coeff : Number) (rs : List Radical) : Number × List Radical :=
  let byBase := joinRuns (fun a b => a.base == b.base) addRational
    (sortBy (fun a b => order (num a.base) (num b.base) == .lt) rs)
  let byExponent := joinRuns (fun a b => a.exponent == b.exponent)
    (fun a b => ⟨a.base.mul b.base, a.exponent⟩)
    (sortBy (fun a b => a.exponent < b.exponent) byBase)
  byExponent.foldl (fun (coeff, out) r =>
    let (coeff, rest) := s.splitWhole coeff r.base r.exponent
    (coeff, out ++ rest.toList)) (coeff, [])

/-- The greatest common divisor of two positive rationals; one for other numbers. -/
def commonDivisor (a b : Number) : Rat :=
  match a, b with
  | .rat p, .rat q => mkRat (Nat.gcd p.num.natAbs q.num.natAbs) (Nat.lcm p.den q.den)
  | _, _ => 1

def divideBy (a : Number) (q : Rat) : Number := a.mul (.rat (1 / q))

/-- What one radical shares with those after it goes into radicals of its own: the rest of its base,
the changed others, the new ones. -/
def share (s : Simplifier) (e : Rat) :
    Number → Number → List Radical → Number × Number × List Radical × List Radical
  | coeff, b, [] => (coeff, b, [], [])
  | coeff, b, r :: rs =>
    if b.isOne then (coeff, b, r :: rs, [])
    else
      let g := commonDivisor b r.base
      if g == 1 then
        let (coeff, b, rs, new) := share s e coeff b rs
        (coeff, b, r :: rs, new)
      else
        let (coeff, grown) := s.splitWhole coeff (.rat g) (e + r.exponent)
        let (coeff, b, rs, new) := share s e coeff (divideBy b g) rs
        (coeff, b, ⟨divideBy r.base g, r.exponent⟩ :: rs, grown.toList ++ new)

/-- Evaluate radicals one after the other; `fuel` bounds their number. -/
def settleRadicals (s : Simplifier) : Nat → Number → List Radical → List Radical →
    Number × List Radical
  | _, coeff, [], out => (coeff, out)
  | 0, coeff, rs, out => (coeff, out ++ rs)
  | fuel + 1, coeff, r :: rs, out =>
    let (coeff, b, rs, new) := s.share r.exponent coeff r.base rs
    let (coeff, out) :=
      if b.isOne then (coeff, out)
      else (s.power (num b) (ofRat r.exponent)).factors.foldl (fun (coeff, out) y => match y with
        | num n => (coeff.mul n, out)
        | .power (num c) (num (.rat q)) => (coeff, out ++ [⟨c, q⟩])
        | _ => (coeff, out)) (coeff, out)
    settleRadicals s fuel coeff (rs ++ new) out

/-- Radicals of one exponent under one root. -/
def underOneRoot (rs : List Radical) : List Radical :=
  joinRuns (fun a b => a.exponent == b.exponent) (fun a b => ⟨a.base.mul b.base, a.exponent⟩)
    (sortBy (fun a b => a.exponent < b.exponent) rs)

/-- The power of minus one: whole turns change the sign, a half is the imaginary unit, and any other
joins a radical of its exponent or stands alone. -/
def takeTurn (turn : Rat) (coeff : Number) (rs : List Radical) :
    Number × List Expr × List Radical :=
  let whole := turn.floor
  let rest := turn - whole
  let coeff := if whole % 2 == 0 then coeff else coeff.neg
  if rest == 0 then (coeff, [], rs)
  else if rest.den == 2 then (coeff, [i], rs)
  else if rs.any (·.exponent == rest) then
    (coeff, [], rs.map fun r => if r.exponent == rest then ⟨r.base.neg, r.exponent⟩ else r)
  else (coeff, [.power (ofInt (-1)) (ofRat rest)], rs)

/-- What an unbounded number leaves of the factors beside it, and the sign they give it. -/
def besideUnboundedFactor (n : Number) (fs : List Expr) : Number × List Expr :=
  match n with
  | .infinite neg =>
    let flips := (fs.filter isNegativeConst).length
    (.infinite (neg != (flips % 2 == 1)),
      fs.filter fun f => !(f.isNegativeConst || f.isPositiveConst || f.isNonneg))
  | .pole => (.pole, fs.filter (·.hasSymbol))
  | n => (n, fs)

/-- Put the number in front; a finite one is distributed over a single sum. -/
def finish (s : Simplifier) (n : Number) (fs : List Expr) : Expr :=
  match fs with
  | [.sum ts] =>
    if n.isFinite && !n.isOne then s.sum (ts.map fun t => s.product [num n, t])
    else if n.isOne then .sum ts else .product [num n, .sum ts]
  | fs => if n.isOne then rawProduct fs else if fs.isEmpty then num n else .product (num n :: fs)

def multiply (s : Simplifier) (xs : List Expr) : Expr :=
  let xs := xs.filter (!·.isProduct) ++ (xs.filter (·.isProduct)).flatMap factors
  let p := (xs.flatMap s.expandRoot).foldl s.sortFactor {}
  let (coeff, fs) := s.evaluatePowers p.coeff (s.gather p.powers)
  let numeric := s.joinNumeric (s.gather p.numeric)
  let (coeff, rs) := s.joinRadicals coeff p.radicals
  let (coeff, rs) := s.settleRadicals (8 * rs.length + 8) coeff rs []
  let (coeff, turned, rs) := takeTurn p.turn coeff (underOneRoot rs)
  let roots := rs.map fun r => s.power (num r.base) (ofRat r.exponent)
  let fs := fs ++ numeric ++ turned ++ roots
  let coeff := fs.foldl (fun n f => match f with
    | num m => n.mul m
    | _ => n) coeff
  let fs := fs.filter (!·.isNum)
  if coeff == .undefined then nan
  else if coeff.isZero then num coeff
  else
    let (coeff, fs) := besideUnboundedFactor coeff fs
    s.finish coeff (sorted fs)

/-- A rational beside a sum: it multiplies every term, unless the sum already has a factor. -/
def scaleSum (q : Rat) (x : Expr) : Option Expr :=
  if q == 0 then none
  else match x with
    | .sum ts => some (if q == 1 then .sum ts else distribute q ts)
    | .product [num n, .sum ts] =>
      let m := (Number.rat q).mul n
      some (if m.isOne then .sum ts else .product [num m, .sum ts])
    | _ => none

/-- The canonical product. -/
def productRule (s : Simplifier) (xs : List Expr) : Expr :=
  match xs.filter (!·.isOne) with
  | [] => 1
  | [x] => x
  | [num (.rat q), x] => match scaleSum q x with
    | some y => y
    | none => s.multiply [num (.rat q), x]
  | [x, num (.rat q)] => match scaleSum q x with
    | some y => y
    | none => s.multiply [num (.rat q), x]
  | xs => s.multiply xs

end Simplifier

end Simultaneous.Algebra
