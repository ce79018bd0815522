import Simultaneous.Settings
import Simultaneous.Text.Brackets

/-!
The plain form of a formula: typographic signs become operators and names, products left unwritten
are written out, and blanks are single spaces. Texts that are empty, too long, forbidden or badly
bracketed are refused.
-/

namespace Simultaneous.Formula

open Text

/-- Words that no formula may contain, in any case, in the order in which they are looked for. -/
def forbidden : List String := [
  "__", "import", "lambda", "eval", "exec", "open", "os.", "sys.", "subprocess", "builtins",
  "getattr", "setattr", "delattr", "compile", "globals", "locals"]

def findForbidden? (s : List Char) : Option String :=
  forbidden.find? fun token => occursIn token.toList s

/-- Typographic signs in plain characters. -/
def plainSign : Char → List Char
  | '−' => ['-']
  | '–' => ['-']
  | 'π' => ['p', 'i']
  | '×' => ['*']
  | '·' => ['*']
  | '÷' => ['/']
  | '^' => ['*', '*']
  | c => [c]

/-- The digit or minus sign that a superscript stands for. -/
def raised? : Char → Option Char
  | '⁰' => some '0'
  | '¹' => some '1'
  | '²' => some '2'
  | '³' => some '3'
  | '⁴' => some '4'
  | '⁵' => some '5'
  | '⁶' => some '6'
  | '⁷' => some '7'
  | '⁸' => some '8'
  | '⁹' => some '9'
  | '⁻' => some '-'
  | _ => none

/-- A run of superscripts becomes a power; `inRun` says that the run has begun. -/
def lowerRaised : Bool → List Char → List Char
  | _, [] => []
  | inRun, c :: s => match raised? c with
    | some d => if inRun then d :: lowerRaised true s else '*' :: '*' :: d :: lowerRaised true s
    | none => c :: lowerRaised false s

/-- The number of blanks at the head. -/
def blanks : List Char → Nat
  | [] => 0
  | c :: s => if isBlank c then blanks s + 1 else 0

/-- A root sign and an opening bracket become a call; the first argument counts characters that are
already replaced. -/
def nameRoots : Nat → List Char → List Char
  | _, [] => []
  | skip + 1, _ :: s => nameRoots skip s
  | 0, c :: s =>
    if c == '√' && (s.drop (blanks s)).head? == some '(' then
      's' :: 'q' :: 'r' :: 't' :: '(' :: nameRoots (blanks s + 1) s
    else c :: nameRoots 0 s

/-- An exponent of scientific notation: `e`, perhaps a sign, and a digit. -/
def isExponent : List Char → Bool
  | e :: s => (e == 'e' || e == 'E') && match s with
    | c :: d :: _ => isDigit c || ((c == '+' || c == '-') && isDigit d)
    | [c] => isDigit c
    | [] => false
  | [] => false

/-- The length of a number at the head: digits, perhaps a point and more digits. -/
def numberLength (s : List Char) : Nat :=
  let n := (s.takeWhile isDigit).length
  match s.drop n with
  | '.' :: r =>
    let m := (r.takeWhile isDigit).length
    if m == 0 then n else n + 1 + m
  | _ => n

/-- What can follow a number as a factor without a sign between them. -/
def beginsFactor (c : Char) : Bool := isAsciiLetter c || c == '_' || c == '('

/-- At a number directly before a factor: the length of the number, and of the blanks after it. -/
def factorAfter? (s : List Char) : Option (Nat × Nat) :=
  let n := numberLength s
  if n == 0 then none
  else
    let gap := blanks (s.drop n)
    match s.drop (n + gap) with
    | [] => none
    | c :: r => if beginsFactor c && !isExponent (c :: r) then some (n, gap) else none

/-- Write the product of a number and the factor after it. `skip` counts characters already dealt
with and `inWord` says that the character before is part of a word. -/
def multiplyNumbers : Nat → Bool → List Char → List Char
  | _, _, [] => []
  | skip + 1, _, c :: s => multiplyNumbers skip (isWord c) s
  | 0, inWord, c :: s =>
    if inWord then c :: multiplyNumbers 0 (isWord c) s
    else match factorAfter? (c :: s) with
      | some (n, gap) =>
        (c :: s).take n ++ '*' :: ((c :: s).drop (n + gap)).take 1 ++
          multiplyNumbers (n + gap) (isWord c) s
      | none => c :: multiplyNumbers 0 (isWord c) s

/-- What can follow a closing bracket as a factor. -/
def followsBracket (c : Char) : Bool := beginsFactor c || isDigit c

/-- Write the product of a bracket and the factor after it. -/
def multiplyBrackets : Nat → List Char → List Char
  | _, [] => []
  | skip + 1, _ :: s => multiplyBrackets skip s
  | 0, c :: s =>
    if c == ')' && ((s.drop (blanks s)).head?.map followsBracket).getD false then
      ')' :: '*' :: multiplyBrackets (blanks s) s
    else c :: multiplyBrackets 0 s

/-- All steps in order. -/
def inPlainSigns (s : List Char) : List Char :=
  let s := s.flatMap plainSign
  let s := lowerRaised false s
  let s := nameRoots 0 s
  let s := multiplyNumbers 0 false s
  let s := multiplyBrackets 0 s
  trim (singleSpaced false s)

/-- The neighbourhood of a position. -/
def excerpt (s : List Char) (position : Nat) : String :=
  String.ofList ((s.take (position + 10)).drop (position - 10))

/-- The plain form of a text, or why it is refused. -/
def plain (limits : Settings) (text : List Char) : Except Refusal (List Char) :=
  let s := trim text
  if s.isEmpty then .error .empty
  else if limits.maxLength < (s.length : Int) then .error (.tooLong limits.maxLength)
  else match findForbidden? (lower s) with
    | some token => .error (.forbiddenToken token s.length)
    | none =>
      let t := inPlainSigns s
      match balance t with
      | .balanced => .ok t
      | .broken position => .error (.unbalanced position (excerpt t position))

end Simultaneous.Formula
