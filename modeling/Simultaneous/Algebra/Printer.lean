import Simultaneous.Algebra.Order
import Simultaneous.Text.Character

/-!
The text of an expression: terms and factors in the order of writing, quotients with a bar, square
roots by name, and brackets where the binding of operators asks for them.
-/

namespace Simultaneous.Algebra

namespace Expr

/-- How tightly the outermost operator of a text binds. -/
inductive Binding
  | sum
  | product
  | power
  | call
  | atom
  deriving DecidableEq, Repr

def Binding.rank : Binding → Nat
  | sum => 0
  | product => 1
  | power => 2
  | call => 3
  | atom => 4

def binding : Expr → Binding
  | num (.rat q) => if q < 0 then .sum else if q.den == 1 then .atom else .product
  | num (.real x) => if x.isNegative then .sum else .atom
  | num (.infinite true) => .sum
  | num _ | sym _ | const _ => .atom
  | sum _ => .sum
  | product fs => if (product fs).startsNegative then .sum else .product
  | power _ _ => .power
  | call _ _ => .call

/-- A power with the sign of its exponent changed. -/
def flipped : Expr → Expr
  | power b x => match x with
    | num n => if n == .ofInt (-1) then b else power b (num n.neg)
    | x => power b (x.scale (-1))
  | x => x

def belowBar : Expr → Bool
  | power _ x => x.coefficient.1.isNegative
  | _ => false

def numberText (strip : Bool) : Number → String
  | .rat q => if q.den == 1 then toString q.num else toString q.num ++ "/" ++ toString q.den
  | .real x => x.text strip
  | .infinite false => "oo"
  | .infinite true => "-oo"
  | .pole => "zoo"
  | .undefined => "nan"

def dropMinus (s : String) : Bool × String :=
  match s.toList with
  | '-' :: cs => (true, String.ofList cs)
  | _ => (false, s)

/-- Signed texts of terms joined into a sum. -/
def joinTerms : List (Bool × String) → String
  | [] => "0"
  | (neg, t) :: rest => (if neg then "-" else "") ++ t ++
      String.join (rest.map fun (neg, t) => (if neg then " - " else " + ") ++ t)

def bracketed (s : String) : String := "(" ++ s ++ ")"

def quotientText (above below : List String) : String :=
  let a := if above.isEmpty then "1" else Text.join "*" above
  match below with
  | [] => a
  | [b] => a ++ "/" ++ b
  | bs => a ++ "/" ++ bracketed (Text.join "*" bs)

mutual

/-- The text; `fuel` bounds the height, and `inner` tells a part from the whole. -/
def textWithin : Nat → Bool → Expr → String
  | 0, _, x => x.className
  | fuel + 1, inner, x => match x with
    | num n => numberText inner n
    | sym s => s
    | const .e => "E"
    | const .pi => "pi"
    | const .i => "I"
    | call f xs => f.name ++ bracketed (Text.join ", " (xs.map (textWithin fuel true)))
    | sum ts => joinTerms ((orderedTerms ts).map fun t =>
        let (neg, s) := dropMinus (textWithin fuel true t)
        (neg, if t.isSum then bracketed s else s))
    | product fs =>
      let limit := (product fs).binding
      let (n, rest) := (product fs).coefficient
      let minus := n.isNegative
      let fs := if minus then ((product fs).scale (-1)).factors else fs
      let fs := orderedFactors (if fs.isEmpty then [rest] else fs)
      let above := fs.flatMap fun f => match f with
        | num (.rat q) => if q.num == 1 then [] else [ofInt q.num]
        | f => if belowBar f then [] else [f]
      let below := fs.flatMap fun f => match f with
        | num (.rat q) => if q.den == 1 then [] else [ofInt q.den]
        | f => if belowBar f then [f] else []
      (if minus then "-" else "") ++
        quotientText (above.map (partText fuel limit))
          (below.map fun f => match f with
            | power b (num n) =>
              if n == .ofInt (-1) && (b.isProduct || b.isPower) then
                bracketed (textWithin fuel true b)
              else partText fuel limit f.flipped
            | f => partText fuel limit f.flipped)
    | power b x =>
      match x with
      | num (.rat q) =>
        if q == half then "sqrt" ++ bracketed (textWithin fuel true b)
        else if q == -half then "1/sqrt" ++ bracketed (textWithin fuel true b)
        else if q == -1 then "1/" ++ partText fuel .power b
        else partText fuel .power b ++ "**" ++ partText fuel .power x
      | x => partText fuel .power b ++ "**" ++ partText fuel .power x

/-- An operand, in brackets unless it binds more tightly than the operator around it. -/
def partText : Nat → Binding → Expr → String
  | 0, _, x => x.className
  | fuel + 1, limit, x =>
    let s := textWithin fuel true x
    if x.binding.rank ≤ limit.rank then bracketed s else s

end

def text (x : Expr) : String := textWithin (3 * x.height + 4) false x

end Expr

end Simultaneous.Algebra
