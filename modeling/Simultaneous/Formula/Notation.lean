import Simultaneous.Formula.Token

/-!
Notation beyond plain arithmetic, written out in calls: names become symbols, decimals with a
repeating part become sums of fractions, numbers become exact or rounded ones, and a mark of
exclamation becomes a factorial.
-/

namespace Simultaneous.Formula

open Text Token

/-- Names with a meaning of their own. -/
def knownNames : List String := [
  "pi", "E", "sqrt", "sin", "cos", "tan", "asin", "acos", "atan", "sinh", "cosh", "tanh", "log",
  "ln", "exp", "Abs", "abs", "factorial", "Symbol", "Integer", "Float", "Rational", "Function"]

/-- Words of the grammar. -/
def keywords : List String := [
  "False", "None", "True", "and", "as", "assert", "async", "await", "break", "class", "continue",
  "def", "del", "elif", "else", "except", "finally", "for", "from", "global", "if", "import", "in",
  "is", "lambda", "nonlocal", "not", "or", "pass", "raise", "return", "try", "while", "with",
  "yield"]

/-- A name is kept if it is known, selects a part, or names an argument; any other is a symbol, or
before a bracket a function. -/
def expandName (before after : Option Token) (s : String) : List Token :=
  if keywords.contains s || knownNames.contains s || before == some (sign ".") ||
      ((before == some (sign "(") || before == some (sign ",")) && after == some (sign "=")) then
    [name s]
  else
    [name (if after == some (sign "(") then "Function" else "Symbol"), sign "(", text s, sign ")"]

/-- Write out names; a name that is kept does not count as the token before the next. -/
def expandNames : Option Token → List Token → List Token
  | _, [] => []
  | before, t :: ts => match t with
    | name s => match expandName before ts.head? s with
      | [u] => u :: expandNames before ts
      | us => us ++ expandNames (some t) ts
    | t => t :: expandNames (some t) ts

def isDigitText (s : String) : Bool := s.toList.all fun c => isAsciiDigit c || c == '_'

def isPlainDecimal (s : String) : Bool :=
  let cs := s.toList
  cs.contains '.' && !cs.contains 'e' && !cs.contains 'E' && !cs.contains 'j' && !cs.contains 'J'

/-- How much of a decimal with a repeating part has been read: its start, the opening bracket, one
block of digits, two blocks. -/
inductive Repeating
  | nothing
  | start (s : String) (length : Nat)
  | opened (s : String)
  | digits (s : String) (repetend : String)
  | moreDigits (s : String) (repetend : String)
  deriving DecidableEq, Repr

/-- The state after one more token. -/
def Repeating.next (r : Repeating) (t : Token) : Repeating :=
  match t, r with
  | number s, nothing => if isPlainDecimal s then start s 1 else nothing
  | number s, opened d => if isDigitText s then digits d s else nothing
  | number s, digits d u => if isDigitText s then moreDigits d (u ++ s) else nothing
  | sign "[", start d _ => opened d
  | sign ".", nothing => start "0." 1
  | _, _ => nothing

/-- The decimal that a closing bracket completes, with the number of its tokens before the bracket.
-/
def Repeating.complete? : Repeating → Option (String × String × Nat)
  | digits d u => some (d, u, 3)
  | moreDigits d u => some (d, u, 4)
  | _ => none

def dropZeros (s : List Char) : List Char := s.dropWhile (· == '0')

def withoutUnderscores (s : List Char) : List Char := s.filter (· != '_')

/-- The sum of fractions that a repeating decimal stands for. -/
def repeatingSum (d repetend : String) : List Token :=
  let cs := d.toList
  let whole := withoutUnderscores (cs.takeWhile (· != '.'))
  let places := withoutUnderscores ((cs.dropWhile (· != '.')).drop 1)
  let repeated := withoutUnderscores repetend.toList
  let zeros := List.replicate places.length '0'
  let orZero (s : List Char) := if s.isEmpty then ['0'] else s
  let num (s : List Char) := number (String.ofList s)
  [sign "(", name "Integer", sign "(", num (orZero whole), sign ")", sign "+",
    name "Rational", sign "(", num (orZero (dropZeros places)), sign ",", num ('1' :: zeros),
    sign ")", sign "+", name "Rational", sign "(", num (dropZeros repeated), sign ",",
    num (List.replicate repeated.length '9' ++ zeros), sign ")", sign ")"]

/-- Write out repeating decimals; `done` holds the tokens so far in reverse. -/
def expandRepeating : Repeating → List Token → List Token → List Token
  | _, done, [] => done.reverse
  | r, done, t :: ts =>
    match t, r.complete? with
    | sign "]", some (d, u, n) =>
      expandRepeating .nothing ((repeatingSum d u).reverse ++ done.drop n) ts
    | t, _ => expandRepeating (r.next t) (t :: done) ts

/-- A number as a call: with a point or an exponent rounded, else exact. -/
def expandNumber (s : String) : List Token :=
  let cs := s.toList
  let imaginary := cs.getLast? == some 'j' || cs.getLast? == some 'J'
  let cs := if imaginary then cs.dropLast else cs
  let call := if cs.contains '.' || cs.contains 'e' || cs.contains 'E' then
      [name "Float", sign "(", text (String.ofList cs), sign ")"]
    else [name "Integer", sign "(", number (String.ofList cs), sign ")"]
  if imaginary then call ++ [sign "*", name "I"] else call

def expandNumbers (ts : List Token) : List Token :=
  ts.flatMap fun t => match t with
    | number s => expandNumber s
    | t => [t]

/-- The last operand of reversed tokens, a bracket with all it holds or one token, split off. -/
def lastOperand : Int → List Token → List Token → List Token × List Token
  | _, taken, [] => (taken, [])
  | depth, taken, t :: ts =>
    let depth := if t == sign ")" then depth + 1 else if t == sign "(" then depth - 1 else depth
    if depth == 0 then (t :: taken, ts) else lastOperand depth (t :: taken) ts

/-- Put the last operand, with a name before it, into a call of the factorial. `done` is reversed.
-/
def wrapFactorial? (f : String) (done : List Token) : Option (List Token) :=
  match done with
  | [] => none
  | sign "(" :: _ => none
  | done =>
    let (operand, rest) := lastOperand 0 [] done
    let closed := operand.foldl (fun n t =>
      if t == sign ")" then n + 1 else if t == sign "(" then n - 1 else n) (0 : Int)
    if closed != 0 then some done
    else
      let (operand, rest) := match rest with
        | name s :: rest => (name s :: operand, rest)
        | rest => (operand, rest)
      some (sign ")" :: (operand.reverse ++ sign "(" :: name f :: rest))

/-- Write out marks of exclamation: one is a factorial, two a double one, more are refused. -/
def expandFactorials? : Nat → List Token → List Token → Option (List Token)
  | marks, done, ts =>
    let settled : Option (List Token) :=
      if marks == 0 then some done
      else if marks == 1 then wrapFactorial? "factorial" done
      else if marks == 2 then wrapFactorial? "factorial2" done
      else none
    match ts with
    | [] => settled.map List.reverse
    | stray '!' :: ts => expandFactorials? (marks + 1) done ts
    | stray c :: ts => expandFactorials? 0 (stray c :: done) ts
    | t :: ts => match settled with
      | some done => expandFactorials? 0 (t :: done) ts
      | none => none

/-- Neighbouring signs run together. -/
def signRuns : List Token → List (List Char × List Token)
  | [] => []
  | t :: ts => match t, signRuns ts with
    | sign w, (s, []) :: rest => (w.toList ++ s, []) :: rest
    | sign w, rest => (w.toList, []) :: rest
    | t, rest => ([], [t]) :: rest

/-- Read a run of signs again, longest first; `fuel` bounds its length. -/
def readSigns : Nat → List Char → List Token
  | 0, _ => []
  | fuel + 1, s => match s with
    | [] => []
    | c :: r => if ['<', '>'].isPrefixOf s then stray '<' :: readSigns fuel (s.drop 2)
      else match signAt? s with
        | some w => sign w :: readSigns fuel (s.drop w.length)
        | none => stray c :: readSigns fuel r

/-- Signs that stand next to each other may form longer ones. -/
def joinSigns (ts : List Token) : List Token :=
  (signRuns ts).flatMap fun (s, rest) => readSigns s.length s ++ rest

/-- All notation written out, if the marks of exclamation allow it. -/
def expand? (ts : List Token) : Option (List Token) :=
  (expandFactorials? 0 [] (expandNumbers (expandRepeating .nothing [] (expandNames none ts)))).map
    joinSigns

end Simultaneous.Formula
