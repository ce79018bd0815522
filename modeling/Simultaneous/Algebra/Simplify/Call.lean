import Simultaneous.Algebra.Simplify.Trigonometry

/-!
Canonical calls: exponentials and logarithms, absolute values, factorials, and the choice of the
rule for a function.
-/

namespace Simultaneous.Algebra.Simplifier

open Expr

/-- The exponential of a rational multiple of the imaginary half turn. -/
def expTurns (s : Simplifier) (q : Rat) : Option Expr :=
  if q.den == 1 then some (if q.num % 2 == 0 then 1 else ofInt (-1))
  else if q.den == 2 then some (if (q + half).num % 2 == 0 then i.negate else i)
  else
    let p := ratMod q 2
    let p := if 1 < p then p - 2 else p
    if p == q then none else some (s.call .exp (s.product [ofRat p, pi, i]))

def imaginaryTurns? (fs : List Expr) : Option Rat :=
  (beside? isPi fs).bind fun rest => (beside? isI rest).bind fun rest => (rawProduct rest).rat?

def isLog : Expr → Bool
  | .call .log _ => true
  | _ => false

/-- The exponential of a product with one logarithm and constants. -/
def expProduct (s : Simplifier) (fs : List Expr) : Option Expr :=
  match (imaginaryTurns? fs).bind s.expTurns with
  | some y => some y
  | none => (beside? isLog fs).bind fun rest =>
    match fs.find? isLog with
    | some (.call .log [y]) =>
      if rest.all fun f => !f.hasSymbol && f.isReal then some (s.power y (s.product rest)) else none
    | _ => none

/-- The exponential of a sum: terms whose exponential is known become factors. -/
def expSum (s : Simplifier) (ts : List Expr) : Option Expr :=
  let parts := ts.map fun t => if t.isOne then (t, none) else match s.call .exp t with
    | .call .exp [u] => (u, none)
    | y => (t, some y)
  let out := parts.filterMap (·.2)
  let rest := (parts.filter (·.2.isNone)).map (·.1)
  let changed := (ts.zip parts).any fun (t, u, y) => y.isNone && !t.same u
  if out.isEmpty && !changed then none
  else some (s.product (out ++ [.call .exp [s.sum rest]]))

def expRule (s : Simplifier) (x : Expr) : Option Expr :=
  match x with
  | num .pole => some nan
  | num (.infinite neg) => some (if neg then 0 else num (.infinite false))
  | num n => if n.isZero then some 1 else if n.isOne then some e else none
  | .call .log [y] => some y
  | const .i => none
  | .product fs => s.expProduct fs
  | .sum ts => s.expSum ts
  | _ => none

def logRule (s : Simplifier) (x : Expr) : Option Expr :=
  match x with
  | num .pole => some pole
  | num (.infinite _) => some (num (.infinite false))
  | num n =>
    if n.isZero then some pole
    else if n.isOne then some 0
    else match n with
      | .rat q =>
        if q < 0 then some (s.sum [s.product [pi, i], s.call .log (ofRat (-q))])
        else if q.num == 1 then some (s.call .log (ofInt q.den)).negate
        else none
      | n =>
        if n.isNegative then some (s.sum [s.product [pi, i], s.call .log (num n.neg)]) else none
  | const .e => some 1
  | .call .exp [y] => if y.isReal then some y else none
  | x =>
    if x.hasSymbol then none
    else if x.isNegativeConst then some (s.sum [s.product [pi, i], s.call .log x.negate])
    else match imaginary? s x with
      | some y => match y.rat? with
        | some q =>
          let quarter := s.product [ofRat half, pi, i]
          some (if q < 0 then s.sum [quarter.negate, s.call .log (ofRat (-q))]
            else s.sum [quarter, s.call .log (ofRat q)])
        | none => none
      | none => none

/-- The logarithm to a base: powers of the base are taken out first. -/
def logarithm (s : Simplifier) (x b : Expr) : Expr :=
  if b.isOne then if x.isOne then nan else pole
  else
    let plain := s.quotient (s.call .log x) (s.call .log b)
    match x.rat?, b.rat? with
    | some q, some p => match count p q with
      | some k =>
        if k == 0 then plain
        else
          let rest := if 0 ≤ k then q / Rat.pow p k.toNat else q * Rat.pow p (-k).toNat
          s.sum [ofInt k, s.quotient (s.call .log (ofRat rest)) (s.call .log b)]
      | none => plain
    | _, _ => if isE b then s.call .log x else plain
where
  within (p n : Int) : Option Int :=
    if p < 2 || n == 0 then none else some (multiplicity p.natAbs n.natAbs)
  count (p q : Rat) : Option Int :=
    if p.den == 1 then
      if q.den == 1 then within p.num q.num
      else if q.num == 1 then (within p.num q.den).map (-·)
      else match within p.num q.num, within p.num q.den with
        | some a, some b => some (a - b)
        | _, _ => none
    else if p.num == 1 then within p.den q.den
    else match within p.num q.num, within p.den q.den, within p.den q.num, within p.num q.den with
      | some a, some b, some c, some d => some (min a b - min c d)
      | _, _, _, _ => none

/-- A sum, or a sum as a factor, without the sign that the other way round would spare. -/
def unsigned (s : Simplifier) (x : Expr) : Expr :=
  match x with
  | .sum ts => if (Expr.sum ts).startsNegative then (Expr.sum ts).negate else x
  | .product fs => s.product (fs.map fun f => match f with
    | .sum ts => if (Expr.sum ts).startsNegative then (Expr.sum ts).negate else f
    | .power (.sum ts) (num (.rat q)) =>
      if q.den == 1 && (Expr.sum ts).startsNegative then .power (Expr.sum ts).negate (num (.rat q))
      else f
    | f => f)
  | x => x

def isDenominator : Expr → Bool
  | .power _ x => match x.coefficient with
    | (n, _) => n.isNegative
  | _ => false

def isAbs : Expr → Bool
  | .call .abs _ => true
  | _ => false

/-- Known factors leave the absolute value; the rest stays under it. -/
def absProduct (s : Simplifier) (fs : List Expr) : Expr :=
  let parts := fs.map fun f => match f with
    | .power b (num (.rat q)) =>
      if q.den == 1 && q < 0 then
        let y := s.call .abs b
        (f, if isAbs y then none else some (s.power y (ofRat q)))
      else plain f
    | f => plain f
  let known := parts.filterMap (·.2)
  let rest := (parts.filter (·.2.isNone)).map (·.1)
  s.product (known ++ (if rest.isEmpty then [] else [.call .abs [s.product rest]]))
where
  plain (f : Expr) : Expr × Option Expr :=
    let y := s.call .abs f
    (f, if isAbs y then none else some y)

/-- The real part, left open unless it is known. -/
def realPart (x : Expr) : Expr := if x.isReal then x else .call (.named "re") [x]

def absRule (s : Simplifier) (x : Expr) : Option Expr :=
  match x with
  | num .pole => some (num (.infinite false))
  | num n => some (num n.abs)
  | const .i => some 1
  | x =>
    let x := s.unsigned x
    let below := x.factors.filter isDenominator
    let above := x.factors.filter (!isDenominator ·)
    if anyHasSymbol below && !anyHasSymbol above then
      some (s.quotient (s.call .abs (s.product above))
        (s.call .abs (s.product (below.map fun f => s.power f (ofInt (-1))))))
    else match x with
      | .product fs => some (s.absProduct fs)
      | .power b y =>
        if b.isReal then
          match y with
          | num (.rat q) =>
            if q.den == 1 then
              some (if q.num % 2 == 0 then x else s.power (s.call .abs b) y)
            else if b.isNonneg then some (s.power b y)
            else if b.isNegativeConst then some (s.power b.negate y)
            else none
          | y =>
            if b.isNonneg then some (s.power b (realPart y))
            else if b.isNegativeConst then
              if y.isReal then some (s.power b.negate y)
              else some (s.product [s.power b.negate (realPart y),
                s.call .exp (s.product [ofInt (-1), pi, .call (.named "im") [y]])])
            else none
        else none
      | .call .exp [y] => some (s.call .exp (realPart y))
      | x =>
        if x.isNonneg then some x
        else if x.isNegativeConst then some x.negate
        else if x.negate.isNonneg then some x.negate
        else some (.call .abs [x])

def factorialOf : Nat → Nat
  | 0 => 1
  | n + 1 => (n + 1) * factorialOf n

def factorialRule (x : Expr) : Option Expr :=
  match x with
  | num (.infinite false) => some x
  | num n => if n.isZero then some 1 else match n.toInt? with
    | some k => some (if k < 0 then pole else ofInt (factorialOf k.natAbs))
    | none => none
  | _ => none

/-- The value at zero of the functions that have one without further rules. -/
def atZero (s : Simplifier) : Fn → Option Expr
  | .sin | .tan | .asin | .atan | .sinh | .tanh => some 0
  | .cos | .cosh | .exp | .factorial => some 1
  | .acos => some (s.piTimes half)
  | .log => some pole
  | .abs => some 0
  | .named _ => none

def ruleFor (s : Simplifier) (f : Fn) (x : Expr) : Option Expr :=
  match f with
  | .abs => s.absRule x
  | .exp => s.expRule x
  | .log => s.logRule x
  | .sin => s.sinRule x
  | .cos => s.cosRule x
  | .tan => s.tanRule x
  | .asin => s.asinRule x
  | .acos => s.acosRule x
  | .atan => s.atanRule x
  | .sinh => s.sinhRule x
  | .cosh => s.coshRule x
  | .tanh => s.tanhRule x
  | .factorial => factorialRule x
  | .named _ => none

def isVanishing : Expr → Bool
  | num n => n.isZero
  | _ => false

/-- The canonical call of a function with one argument. -/
def callRule (s : Simplifier) (f : Fn) (x : Expr) : Expr :=
  match x with
  | num .undefined => match f with
    | .named _ => .call f [x]
    | .factorial => .call f [x]
    | _ => nan
  | x =>
    match (if isVanishing x then s.atZero f else none) with
    | some y => y
    | none =>
      let poleAt : Option Expr := match x, f with
        | num .pole, .sin | num .pole, .cos | num .pole, .tan | num .pole, .sinh
        | num .pole, .cosh | num .pole, .tanh => some nan
        | _, _ => none
      match poleAt with
      | some y => y
      | none => match s.ruleFor f x with
        | some y => y
        | none => (evaluateRounded s f x).getD (.call f [x])

end Simultaneous.Algebra.Simplifier
