import Simultaneous.Algebra.Expr

/-!
Expressions as their admission sees them: the kind of each node and its operands. What is no
expression can be an operand too.
-/

namespace Simultaneous.Formula

open Algebra

inductive Tree
  /-- A symbol, a number or a constant. -/
  | atom
  | call (name : String) (operands : List Tree)
  /-- Any other expression. -/
  | compound (operands : List Tree)
  /-- What is no expression. Its parts are never looked at. -/
  | foreign (kind : String)
  deriving Inhabited

namespace Tree

mutual

/-- All nodes are expressions. -/
def isScalar : Tree → Bool
  | atom => true
  | call _ ts | compound ts => allScalar ts
  | foreign _ => false

def allScalar : List Tree → Bool
  | [] => true
  | t :: ts => t.isScalar && allScalar ts

end

mutual

def ofExpr : Expr → Tree
  | .num _ | .sym _ | .const _ => atom
  | .sum xs | .product xs => compound (ofExprs xs)
  | .power b x => compound [ofExpr b, ofExpr x]
  | .call f xs => call f.name (ofExprs xs)

def ofExprs : List Expr → List Tree
  | [] => []
  | x :: xs => ofExpr x :: ofExprs xs

end

end Tree

/-- An expression with a part that is none. -/
structure Mixed where
  tree : Tree
  impure : tree.isScalar = false

end Simultaneous.Formula
