import Simultaneous.Formula.Notation
import Simultaneous.Formula.Phrase
import Simultaneous.Decimal.Reading

/-!
Reading a phrase from tokens. Powers bind to the right and more tightly than the sign on their left;
then come signs, products, sums, shifts, the three bitwise levels, comparisons, the logical words
and the choice.
-/

namespace Simultaneous.Formula

open Token

/-- The value of a written integer: no zeros in front, not too long. -/
def integerValue? (s : String) : Option Nat :=
  let ds := withoutUnderscores s.toList
  if !Decimal.isDigits ds then none
  else if Decimal.maxIntegerDigits < ds.length then none
  else
    let n := Decimal.digitsValue ds
    if ds.head? == some '0' && n != 0 then none else some n

/-- The binary signs of a level, from the loosest to products. -/
def signsOf : Nat → List (String × BinarySign)
  | 0 => [("|", .either)]
  | 1 => [("^", .exclusive)]
  | 2 => [("&", .both)]
  | 3 => [("<<", .shiftLeft), (">>", .shiftRight)]
  | 4 => [("+", .add), ("-", .sub)]
  | 5 => [("*", .mul), ("/", .div), ("//", .floorDiv), ("%", .mod), ("@", .matMul)]
  | _ => []

def signAmong? (level : Nat) : List Token → Option (BinarySign × List Token)
  | sign w :: ts => ((signsOf level).find? (·.1 == w)).map fun p => (p.2, ts)
  | _ => none

def relation? : List Token → Option (Relation × List Token)
  | sign "==" :: ts => some (.equal, ts)
  | sign "!=" :: ts => some (.unequal, ts)
  | sign "<" :: ts => some (.less, ts)
  | sign "<=" :: ts => some (.lessEqual, ts)
  | sign ">" :: ts => some (.greater, ts)
  | sign ">=" :: ts => some (.greaterEqual, ts)
  | name "in" :: ts => some (.isIn, ts)
  | name "not" :: name "in" :: ts => some (.isNotIn, ts)
  | name "is" :: name "not" :: ts => some (.isOther, ts)
  | name "is" :: ts => some (.isSame, ts)
  | _ => none

def unarySign? : List Token → Option (UnarySign × List Token)
  | sign "+" :: ts => some (.plus, ts)
  | sign "-" :: ts => some (.minus, ts)
  | sign "~" :: ts => some (.invert, ts)
  | _ => none

/-- Neighbouring quoted texts are one. -/
def readTexts : List Token → String × List Token
  | text s :: ts => let (t, rest) := readTexts ts; (s ++ t, rest)
  | ts => ("", ts)

mutual

def expression : Nat → List Token → Option (Phrase × List Token)
  | 0, _ => none
  | fuel + 1, ts => do
    let (a, ts) ← disjunction fuel ts
    match ts with
    | name "if" :: ts =>
      let (c, ts) ← disjunction fuel ts
      match ts with
      | name "else" :: ts =>
        let (b, ts) ← expression fuel ts
        return (.choice a c b, ts)
      | _ => none
    | ts => return (a, ts)

def disjunction : Nat → List Token → Option (Phrase × List Token)
  | 0, _ => none
  | fuel + 1, ts => do
    let (a, ts) ← conjunction fuel ts
    match ts with
    | name "or" :: ts =>
      let (b, ts) ← disjunction fuel ts
      return (.either a b, ts)
    | ts => return (a, ts)

def conjunction : Nat → List Token → Option (Phrase × List Token)
  | 0, _ => none
  | fuel + 1, ts => do
    let (a, ts) ← inversion fuel ts
    match ts with
    | name "and" :: ts =>
      let (b, ts) ← conjunction fuel ts
      return (.both a b, ts)
    | ts => return (a, ts)

def inversion : Nat → List Token → Option (Phrase × List Token)
  | 0, _ => none
  | fuel + 1, ts => match ts with
    | name "not" :: ts => do
      let (a, ts) ← inversion fuel ts
      return (.negation a, ts)
    | ts => do
      let (a, ts) ← operand fuel 0 ts
      match relation? ts with
      | none => return (a, ts)
      | some _ =>
        let (rest, ts) ← comparisons fuel ts
        return (.compare a rest, ts)

def comparisons : Nat → List Token → Option ((List (Relation × Phrase)) × List Token)
  | 0, _ => none
  | fuel + 1, ts => match relation? ts with
    | none => return ([], ts)
    | some (r, ts) => do
      let (b, ts) ← operand fuel 0 ts
      let (rest, ts) ← comparisons fuel ts
      return ((r, b) :: rest, ts)

/-- A chain of binary signs of one level; past the last level, signs and powers. -/
def operand : Nat → Nat → List Token → Option (Phrase × List Token)
  | 0, _, _ => none
  | fuel + 1, level, ts =>
    if 5 < level then signed fuel ts
    else do
      let (a, ts) ← operand fuel (level + 1) ts
      chained fuel level a ts

def chained : Nat → Nat → Phrase → List Token → Option (Phrase × List Token)
  | 0, _, _, _ => none
  | fuel + 1, level, a, ts => match signAmong? level ts with
    | none => return (a, ts)
    | some (op, ts) => do
      let (b, ts) ← operand fuel (level + 1) ts
      chained fuel level (.binary op a b) ts

def signed : Nat → List Token → Option (Phrase × List Token)
  | 0, _ => none
  | fuel + 1, ts => match unarySign? ts with
    | some (op, ts) => do
      let (a, ts) ← signed fuel ts
      return (.unary op a, ts)
    | none => do
      let (a, ts) ← atom fuel ts
      let (a, ts) ← trailers fuel a ts
      match ts with
      | sign "**" :: ts =>
        let (b, ts) ← signed fuel ts
        return (.binary .pow a b, ts)
      | ts => return (a, ts)

def trailers : Nat → Phrase → List Token → Option (Phrase × List Token)
  | 0, _, _ => none
  | fuel + 1, a, ts => match ts with
    | sign "." :: name s :: ts =>
      if keywords.contains s then none else trailers fuel (.select a s) ts
    | sign "(" :: ts => do
      let (args, ts) ← arguments fuel false ts
      trailers fuel (.call a args) ts
    | sign "[" :: ts => do
      let (i, ts) ← subscript fuel ts
      trailers fuel (.item a i) ts
    | ts => return (a, ts)

/-- The arguments up to the closing bracket; after a named one only named ones follow. -/
def arguments : Nat → Bool → List Token → Option ((List Phrase) × List Token)
  | 0, _, _ => none
  | fuel + 1, named, ts => match ts with
    | sign ")" :: ts => return ([], ts)
    | name s :: sign "=" :: ts =>
      if keywords.contains s then none
      else do
        let (a, ts) ← expression fuel ts
        let (rest, ts) ← moreArguments fuel true ts
        return (.keyword s a :: rest, ts)
    | sign "*" :: ts => do
      let (a, ts) ← expression fuel ts
      let (rest, ts) ← moreArguments fuel named ts
      return (.spread a :: rest, ts)
    | ts =>
      if named then none
      else do
        let (a, ts) ← expression fuel ts
        let (rest, ts) ← moreArguments fuel named ts
        return (a :: rest, ts)

def moreArguments : Nat → Bool → List Token → Option ((List Phrase) × List Token)
  | 0, _, _ => none
  | fuel + 1, named, ts => match ts with
    | sign ")" :: ts => return ([], ts)
    | sign "," :: ts => arguments fuel named ts
    | _ => none

/-- What stands between square brackets after an operand: one index, a slice, or several. -/
def subscript : Nat → List Token → Option (Phrase × List Token)
  | 0, _ => none
  | fuel + 1, ts => do
    let (first, ts) ← index fuel ts
    match ts with
    | sign "]" :: ts => return (first, ts)
    | sign "," :: _ =>
      let (rest, ts) ← indices fuel ts
      return (.tuple (first :: rest), ts)
    | _ => none

def indices : Nat → List Token → Option ((List Phrase) × List Token)
  | 0, _ => none
  | fuel + 1, ts => match ts with
    | sign "]" :: ts => return ([], ts)
    | sign "," :: sign "]" :: ts => return ([], ts)
    | sign "," :: ts => do
      let (i, ts) ← index fuel ts
      let (rest, ts) ← indices fuel ts
      return (i :: rest, ts)
    | _ => none

def index : Nat → List Token → Option (Phrase × List Token)
  | 0, _ => none
  | fuel + 1, ts => do
    let (low, ts) ← bound fuel ts
    match ts with
    | sign ":" :: ts =>
      let (high, ts) ← bound fuel ts
      match ts with
      | sign ":" :: ts =>
        let (step, ts) ← bound fuel ts
        return (.slice [low, high, step], ts)
      | ts => return (.slice [low, high], ts)
    | ts => match low with
      | some a => return (a, ts)
      | none => none

/-- A bound of a slice, which may be missing. -/
def bound : Nat → List Token → Option ((Option Phrase) × List Token)
  | 0, _ => none
  | fuel + 1, ts => match ts with
    | sign ":" :: _ | sign "]" :: _ | sign "," :: _ => return (none, ts)
    | ts => do
      let (a, ts) ← expression fuel ts
      return (some a, ts)

/-- Items between commas up to a closing bracket, and whether a comma stood among them. -/
def items : Nat → String → List Token → Option ((List Phrase × Bool) × List Token)
  | 0, _, _ => none
  | fuel + 1, close, ts => match ts with
    | sign w :: rest => if w == close then return (([], false), rest) else itemsFrom fuel close ts
    | ts => itemsFrom fuel close ts

def itemsFrom : Nat → String → List Token → Option ((List Phrase × Bool) × List Token)
  | 0, _, _ => none
  | fuel + 1, close, ts => do
    let (a, ts) ← (match ts with
      | sign "*" :: ts => (operand fuel 0 ts).map fun (a, ts) => (Phrase.spread a, ts)
      | ts => expression fuel ts)
    match ts with
    | sign "," :: ts =>
      let ((rest, _), ts) ← items fuel close ts
      return ((a :: rest, true), ts)
    | sign w :: ts => if w == close then return (([a], false), ts) else none
    | _ => none

/-- The entries of a record after its first key. -/
def entries : Nat → Phrase → List Token → Option ((List (Phrase × Phrase)) × List Token)
  | 0, _, _ => none
  | fuel + 1, key, ts => do
    let (v, ts) ← expression fuel ts
    match ts with
    | sign "\x7d" :: ts => return ([(key, v)], ts)
    | sign "," :: sign "\x7d" :: ts => return ([(key, v)], ts)
    | sign "," :: ts =>
      let (k, ts) ← expression fuel ts
      match ts with
      | sign ":" :: ts =>
        let (rest, ts) ← entries fuel k ts
        return ((key, v) :: rest, ts)
      | _ => none
    | _ => none

def atom : Nat → List Token → Option (Phrase × List Token)
  | 0, _ => none
  | fuel + 1, ts => match ts with
    | name "None" :: ts => return (.nothing, ts)
    | name "True" :: ts => return (.truth true, ts)
    | name "False" :: ts => return (.truth false, ts)
    | name s :: ts => if keywords.contains s then none else return (.name s, ts)
    | number s :: ts => do
      let n ← integerValue? s
      return (.int n, ts)
    | text s :: ts =>
      let (t, ts) := readTexts ts
      return (.text (s ++ t), ts)
    | bytes :: ts => return (.bytes, ts)
    | sign "..." :: ts => return (.dots, ts)
    | sign "(" :: ts => do
      let ((xs, comma), ts) ← items fuel ")" ts
      match xs, comma with
      | [.spread _], false => none
      | [a], false => return (a, ts)
      | xs, _ => return (.tuple xs, ts)
    | sign "[" :: ts => do
      let ((xs, _), ts) ← items fuel "]" ts
      return (.list xs, ts)
    | sign "\x7b" :: sign "\x7d" :: ts => return (.record [], ts)
    | sign "\x7b" :: sign "*" :: ts => do
      let ((xs, _), ts) ← items fuel "\x7d" (sign "*" :: ts)
      return (.set xs, ts)
    | sign "\x7b" :: ts => do
      let (k, ts) ← expression fuel ts
      match ts with
      | sign ":" :: ts =>
        let (es, ts) ← entries fuel k ts
        return (.record es, ts)
      | sign "," :: ts =>
        let ((xs, _), ts) ← items fuel "\x7d" ts
        return (.set (k :: xs), ts)
      | sign "\x7d" :: ts => return (.set [k], ts)
      | _ => none
    | _ => none

end

/-- Items at the outermost level: one phrase, or several as a tuple. -/
def outermost (fuel : Nat) : Nat → List Token → Option (List Phrase × Bool)
  | 0, _ => none
  | count + 1, ts => do
    let (a, ts) ← expression fuel ts
    match ts with
    | [] => return ([a], false)
    | [sign ","] => return ([a], true)
    | sign "," :: ts =>
      let (rest, _) ← outermost fuel count ts
      return (a :: rest, true)
    | _ => none

/-- The deepest nesting of brackets. -/
def nesting : Nat → List Token → Nat
  | _, [] => 0
  | depth, t :: ts =>
    if t == sign "(" || t == sign "[" || t == sign "\x7b" then
      max (depth + 1) (nesting (depth + 1) ts)
    else if t == sign ")" || t == sign "]" || t == sign "\x7d" then nesting (depth - 1) ts
    else nesting depth ts

/-- The deepest nesting of brackets that is read. -/
def maxNesting : Nat := 200

def isStray : Token → Bool
  | stray _ => true
  | _ => false

/-- The phrase of a plain formula, if it has one. -/
def readPhrase? (s : List Char) : Option Phrase := do
  let ts ← expand? (Token.scan s)
  let ts := ts.filter fun t => t != comment && t != stray ' '
  if ts.any isStray || maxNesting < nesting 0 ts then none
  else
    let (xs, comma) ← outermost (12 * ts.length + 40) (ts.length + 1) ts
    match xs, comma with
    | [a], false => return a
    | xs, _ => return .tuple xs

end Simultaneous.Formula
