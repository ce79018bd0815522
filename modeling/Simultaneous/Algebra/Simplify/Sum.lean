import Simultaneous.Algebra.Simplify.Basic

/-!
Canonical sums: nested sums are opened, numbers are added up, like terms are combined.
-/

namespace Simultaneous.Algebra

/-- A term as a multiple of an expression without number in front. -/
structure Multiple where
  of : Expr
  times : Number

namespace Simplifier

open Expr

/-- Combine the multiples of equal expressions. -/
def combine (xs : List Multiple) : List Multiple :=
  joinRuns (fun a b => a.of.same b.of) (fun a b => ⟨a.of, a.times.add b.times⟩)
    (sortBy (fun a b => order a.of b.of == .lt) xs)

def multiples (xs : List Expr) : List Multiple :=
  xs.map fun x => let (n, y) := x.coefficient; ⟨y, n⟩

/-- A multiple as a term. -/
def termOf (s : Simplifier) (m : Multiple) : Expr :=
  if m.times.isOne then m.of
  else match m.of with
    | .product fs => .product (num m.times :: fs)
    | .sum ts => .product [num m.times, .sum ts]
    | x => s.product [num m.times, x]

/-- What an unbounded number leaves of the terms beside it. -/
def besideUnbounded (n : Number) (ts : List Expr) : List Expr :=
  match n with
  | .pole => ts.filter (·.hasSymbol)
  | .infinite _ => ts.filter (!·.isReal)
  | _ => ts

def addTerms (s : Simplifier) (xs : List Expr) : Expr :=
  let xs := xs.filter (!·.isSum) ++ (xs.filter (·.isSum)).flatMap terms
  let n := xs.foldl (fun n x => match x with
    | num m => n.add m
    | _ => n) 0
  let ms := (combine (multiples (xs.filter (!·.isNum)))).filter (!·.times.isZero)
  if n == .undefined || ms.any (·.times == .undefined) then nan
  else
    let ts := sorted (besideUnbounded n (ms.map s.termOf))
    rawSum (if n == 0 then ts else num n :: ts)

/-- The canonical sum. A rational beside a product needs no work. -/
def sumRule (s : Simplifier) (xs : List Expr) : Expr :=
  match xs.filter (!·.isZero) with
  | [] => 0
  | [x] => x
  | [num (.rat q), .product fs] => .sum [num (.rat q), .product fs]
  | [.product fs, num (.rat q)] => .sum [num (.rat q), .product fs]
  | xs => s.addTerms xs

end Simplifier

end Simultaneous.Algebra
