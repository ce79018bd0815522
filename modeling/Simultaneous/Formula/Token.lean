import Simultaneous.Text.Character

/-!
Tokens of a plain formula: names, numbers, quoted texts and signs. What fits none of them is a stray
character.
-/

namespace Simultaneous.Formula

open Text

inductive Token
  | name (s : String)
  | number (s : String)
  /-- A quoted text by its value. -/
  | text (s : String)
  | bytes
  | sign (s : String)
  | stray (c : Char)
  | comment
  deriving DecidableEq, Repr

namespace Token

/-- The signs, each before any other that begins it. -/
def signs : List String := [
  "~", "\x7d", "|=", "|", "\x7b", "^=", "^", "]", "[", "@=", "@", ">>=", ">>", ">=", ">", "==", "=",
  "<=", "<<=", "<<", "<", ";", ":=", ":", "/=", "//=", "//", "/", "...", ".", "->", "-=", "-", ",",
  "+=", "+", "*=", "**=", "**", "*", ")", "(", "&=", "&", "%=", "%", "!="]

/-- The sign at the head. -/
def signAt? (s : List Char) : Option String := signs.find? fun w => w.toList.isPrefixOf s

/-- The length of a block of digits, single underscores between them. -/
def digitRun : List Char → Nat
  | [] => 0
  | c :: s =>
    if isAsciiDigit c then digitRun s + 1
    else if c == '_' && (match s with
      | d :: _ => isAsciiDigit d
      | [] => false) then digitRun s + 1
    else 0

/-- A block of digits at the head; an underscore cannot begin it. -/
def digitsAt (s : List Char) : Nat :=
  match s with
  | c :: _ => if isAsciiDigit c then digitRun s else 0
  | [] => 0

def exponentAt (s : List Char) : Nat :=
  match s with
  | c :: r =>
    if c == 'e' || c == 'E' then
      match r with
      | d :: t =>
        if d == '+' || d == '-' then
          let n := digitsAt t
          if n == 0 then 0 else n + 2
        else
          let n := digitsAt r
          if n == 0 then 0 else n + 1
      | [] => 0
    else 0
  | [] => 0

/-- The length of a number with a point or an exponent. -/
def floatAt (s : List Char) : Nat :=
  let n := digitsAt s
  match s.drop n with
  | '.' :: r =>
    let m := digitsAt r
    if n == 0 && m == 0 then 0
    else
      let k := n + 1 + m
      k + exponentAt (s.drop k)
  | r =>
    let k := exponentAt r
    if n == 0 || k == 0 then 0 else n + k

/-- The length of an integer: one that begins with zero has no other digits. -/
def integerAt (s : List Char) : Nat :=
  match s with
  | '0' :: r => (r.takeWhile fun c => c == '0').length + 1
  | s => digitsAt s

def isImaginaryMark : List Char → Bool
  | c :: _ => c == 'j' || c == 'J'
  | [] => false

/-- The length of the number at the head, zero when there is none. -/
def numberAt (s : List Char) : Nat :=
  let n := digitsAt s
  let f := floatAt s
  if n != 0 && isImaginaryMark (s.drop n) then n + 1
  else if f != 0 then if isImaginaryMark (s.drop f) then f + 1 else f
  else integerAt s

/-- The value and length of a quoted text after its opening quote, if it is closed. -/
def closeQuote? (quote : Char) (raw : Bool) : List Char → Option (List Char × Nat)
  | [] => none
  | c :: s =>
    if c == quote then some ([], 1)
    else if c == '\\' then match s with
      | [] => none
      | d :: t => (closeQuote? quote raw t).map fun (v, n) =>
        (if raw then '\\' :: d :: v
          else if d == 'n' then '\n' :: v
          else if d == 't' then '\t' :: v
          else if d == '\\' || d == '\'' || d == '"' then d :: v
          else '\\' :: d :: v, n + 2)
    else (closeQuote? quote raw s).map fun (v, n) => (c :: v, n + 1)

/-- The same for a text between triple quotes. -/
def closeTriple? (quote : Char) : List Char → Option (List Char × Nat)
  | [] => none
  | c :: s =>
    if c == quote && [quote, quote].isPrefixOf s then some ([], 3)
    else (closeTriple? quote s).map fun (v, n) => (c :: v, n + 1)

/-- Letters that can stand before a quoted text. -/
def prefixes : List String := ["", "b", "r", "u", "f", "br", "rb", "fr", "rf"]

/-- A quoted text at the head, with its length. -/
def quotedAt? (s : List Char) : Option (Token × Nat) :=
  let letters := s.takeWhile isAsciiLetter
  let mark := String.ofList (lower letters)
  if letters.length ≤ 2 && prefixes.contains mark then
    let raw := mark.toList.contains 'r'
    match s.drop letters.length with
    | q :: r =>
      if q == '\'' || q == '"' then
        let found := if [q, q].isPrefixOf r && (closeTriple? q (r.drop 2)).isSome then
            (closeTriple? q (r.drop 2)).map fun (v, n) => (v, n + 2)
          else closeQuote? q raw r
        found.map fun (v, n) =>
          (if mark.toList.contains 'b' then bytes else text (String.ofList v),
            letters.length + 1 + n)
      else none
    | [] => none
  else none

/-- The token at the head of a text that begins with no blank, with its length. -/
def next? (s : List Char) : Option (Token × Nat) :=
  let n := numberAt s
  if n != 0 then some (number (String.ofList (s.take n)), n)
  else match signAt? s with
    | some w => some (sign w, w.length)
    | none => match quotedAt? s with
      | some t => some t
      | none =>
        let w := s.takeWhile isWord
        match w with
        | [] => none
        | c :: _ =>
          some (if beginsName c then name (String.ofList w) else stray c, w.length)

/-- All tokens; `fuel` bounds the length of the text. A blank before a stray character is one too.
-/
def scanWithin : Nat → List Char → List Token
  | 0, _ => []
  | fuel + 1, s =>
    let gap := (s.takeWhile (· == ' ')).length
    match s.drop gap with
    | [] => []
    | c :: r =>
      if c == '#' then [comment]
      else match next? (c :: r) with
        | some (t, n) => t :: scanWithin fuel ((c :: r).drop n)
        | none =>
          if gap == 0 then stray c :: scanWithin fuel r
          else stray ' ' :: scanWithin fuel (s.drop 1)

def scan (s : List Char) : List Token := scanWithin (2 * s.length + 1) s

end Token

end Simultaneous.Formula
