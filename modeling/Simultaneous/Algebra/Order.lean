import Simultaneous.Algebra.Approx

/-!
The order in which terms and factors are written. Terms go by falling powers of their symbols,
factors and the symbols themselves by a sort key: numbers, then symbols, products, sums, functions;
a power stands beside its base.
-/

namespace Simultaneous.Algebra

/-- A sort key: the class of the base, its operands, the exponent, the number in front. A number has
no exponent. -/
inductive Key
  | text (s : String)
  | node (group place : Nat) (kind : String) (operands : List Key) (exponent : List Key)
    (coeff : Number)

def compareValues (a b : Number) : Ordering :=
  if a.lt b then .lt else if b.lt a then .gt else .eq

mutual

def Key.order : Key → Key → Ordering
  | .text s, .text t => compare s t
  | .text _, .node .. => .lt
  | .node .., .text _ => .gt
  | .node g p k xs e c, .node g' p' k' xs' e' c' =>
    match compare g g' with
    | .eq => match compare p p' with
      | .eq => match compare k k' with
        | .eq => match compare xs.length xs'.length with
          | .eq => match Key.orderAll xs xs' with
            | .eq => match Key.orderAll e e' with
              | .eq => compareValues c c'
              | o => o
            | o => o
          | o => o
        | o => o
      | o => o
    | o => o

def Key.orderAll : List Key → List Key → Ordering
  | [], [] => .eq
  | [], _ :: _ => .lt
  | _ :: _, [] => .gt
  | x :: xs, y :: ys => match x.order y with
    | .eq => Key.orderAll xs ys
    | o => o

end

namespace Expr

/-- Places of the functions that have one; other known functions follow, unknown ones lead. -/
def functionPlace : Fn → Nat
  | .exp => 10
  | .log => 11
  | .sin => 20
  | .cos => 21
  | .tan => 22
  | .sinh => 30
  | .cosh => 31
  | .tanh => 32
  | .named "cot" => 23
  | .named "re" => 41
  | .named "im" => 42
  | .named "floor" | .named "Mod" => 10000
  | .named _ => 0
  | _ => 10000

def classKey : Expr → Nat × Nat × String
  | num .pole => (2, 0, "ComplexInfinity")
  | num _ => (1, 0, "Number")
  | sym _ => (2, 0, "Symbol")
  | const c => (2, 0, c.className)
  | product _ => (3, 0, "Mul")
  | sum _ => (3, 1, "Add")
  | power _ _ => (3, 2, "Pow")
  | call f _ => (4, functionPlace f, f.name)

def atomText : Expr → String
  | sym s => s
  | const .e => "E"
  | const .pi => "pi"
  | const .i => "I"
  | _ => "zoo"

/-- A power as base and whole exponent: a root counts as base. -/
def wholePower (x : Expr) : Expr × Int :=
  match x.baseExp with
  | (b, num (.rat q)) => if q.den == 1 then (b, q.num) else (power b (ofRat (mkRat 1 q.den)), q.num)
  | (_, num _) => (x, 1)
  | (b, y) => match y with
    | product (num (.rat q) :: rest) =>
      let tail := (rawProduct rest).scale (mkRat 1 q.den)
      (match b with
        | const .e => call .exp [tail]
        | _ => power b tail, q.num)
    | _ => (x, 1)

/-- A term taken apart: its value without symbols, and its symbolic factors as powers. -/
structure Monomial where
  value : Approx
  powers : List (Expr × Int)

def monomial (x : Expr) : Monomial :=
  match x.coefficient with
  | (n, rest) =>
    (if rest.isOne then [] else rest.factors).foldl (fun m f =>
      match (if f.hasSymbol then none else f.approx) with
      | some v => { m with value := m.value.mul v }
      | none => { m with powers := m.powers ++ [f.wholePower] }) ⟨⟨n.toFloat, 0⟩, []⟩

/-- The exponent of a base, zero when it does not occur. -/
def Monomial.degree (m : Monomial) (b : Expr) : Int :=
  ((m.powers.reverse.find? fun p => p.1.same b).map (·.2)).getD 0

def compareFloats (a b : Float) : Ordering := if a < b then .lt else if b < a then .gt else .eq

/-- The first unequal degree decides, the larger one going first; then the values. -/
def Monomial.order (gens : List Expr) (a b : Monomial) : Ordering :=
  match gens.findSome? fun g =>
    let i := a.degree g
    let j := b.degree g
    if j < i then some Ordering.lt else if i < j then some Ordering.gt else none with
  | some o => o
  | none =>
    match compare (a.value.im != 0) (b.value.im != 0) with
    | .eq => match compareFloats a.value.im b.value.im with
      | .eq => compareFloats a.value.re b.value.re
      | o => o
    | o => o

/-- Different expressions, each once. -/
def distinct (xs : List Expr) : List Expr := joinRuns same (fun a _ => a) (sorted xs)

/-- A positive constant before a negative multiple: `1 - x` keeps its order. -/
def constantFirst? : List Expr → Option (List Expr)
  | [a, b] =>
    let isConstant : Expr → Bool := fun x => match x with
      | num .pole => false
      | num _ => true
      | const c => c != .i
      | _ => false
    let (a, b) := if !isConstant a && isConstant b then (b, a) else (a, b)
    match b with
    | product [num n, _] =>
      let positive := match a with
        | num m => m.isPositive
        | _ => true
      if isConstant a && positive && n.isNegative then some [a, b] else none
    | _ => none
  | _ => none

mutual

/-- The sort key; `fuel` bounds the height. -/
def keyWithin : Nat → Expr → Key
  | 0, x => .text x.className
  | fuel + 1, x => match x with
    | num .pole => .node 2 0 "ComplexInfinity" [.text "zoo"] [oneKey] 1
    | num n => .node 1 0 "Number" [] [] n
    | sym s => .node 2 0 "Symbol" [.text s] [oneKey] 1
    | const c => .node 2 0 c.className [.text (const c).atomText] [oneKey] 1
    | x =>
      let (coeff, y) := x.coefficient
      let (b, e) := match y with
        | power b e => (b, keyWithin fuel e)
        | y => (y, oneKey)
      let operands := match b with
        | sum ts => (orderedWithin fuel ts).map (keyWithin fuel)
        | product fs => (fs.map fun f => (keyWithin fuel f, f)) |>
            sortBy (fun p q => p.1.order q.1 == .lt) |>.map (·.1)
        | power b e => [keyWithin fuel b, keyWithin fuel e]
        | call _ xs => xs.map (keyWithin fuel)
        | num n => [.text (toString n.toFloat)]
        | b => [.text b.atomText]
      let (g, p, k) := b.classKey
      .node g p k operands [e] coeff
where
  oneKey : Key := .node 1 0 "Number" [] [] 1

/-- The terms of a sum in the order of writing. -/
def orderedWithin : Nat → List Expr → List Expr
  | 0, ts => ts
  | fuel + 1, ts => match constantFirst? ts with
    | some ts => ts
    | none =>
      let ms := ts.map fun t => (t.monomial, t)
      let gens := distinct (ms.flatMap fun m => m.1.powers.map (·.1))
      let keyed := (gens.map fun g => (keyWithin fuel g, g)) |>
        sortBy (fun p q => p.1.order q.1 == .lt)
      let gens := keyed.map (·.2)
      (sortBy (fun a b => a.1.order gens b.1 == .lt) ms).map (·.2)

end

def sortKey (x : Expr) : Key := keyWithin (2 * x.height + 2) x

/-- The terms of a sum in the order of writing. -/
def orderedTerms (ts : List Expr) : List Expr := orderedWithin (2 * heightOf ts + 4) ts

/-- The factors of a product in the order of writing. -/
def orderedFactors (fs : List Expr) : List Expr :=
  (sortBy (fun p q => p.1.order q.1 == .lt) (fs.map fun f => (f.sortKey, f))).map (·.2)

/-- A number in front that is negative, or for a sum mostly such terms; when as many are negative as
not, the sort key decides. -/
def startsNegative (x : Expr) : Bool :=
  match x with
  | sum ts =>
    let negatives := (ts.filter startsNegativeTerm).length
    let others := ts.length - negatives
    if negatives < others then false
    else if others < negatives then true
    else x.sortKey.order x.negate.sortKey == .lt
  | x => startsNegativeTerm x
where
  startsNegativeTerm : Expr → Bool
    | num n => n.isNegative
    | product (num .pole :: _) => false
    | product (num n :: _) => n.isNegative
    | _ => false

end Expr

end Simultaneous.Algebra
