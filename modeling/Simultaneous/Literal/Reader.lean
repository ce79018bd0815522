import Simultaneous.Literal.Basic

/-!
Reading one literal from text: numbers, quoted strings, lists in square brackets, records in curly
ones, and the names of the constants. The first fault is reported with its place.
-/

namespace Simultaneous.Literal

open Text Decimal

inductive Fault
  | expectingValue
  | extraData
  | expectingComma
  | expectingColon
  | expectingName
  | openString
  | controlCharacter
  | badEscape
  | badHexEscape
  | byteOrderMark
  | integerTooLong (digits : Nat)
  /-- Lists or records inside each other beyond the limit. -/
  | nestedTooDeep (during : String)
  deriving DecidableEq, Repr

/-- Integers of more digits than this are refused, in these words. -/
def integerTooLongText (digits : Nat) : String :=
  "Exceeds the limit (4300 digits) for integer string conversion: value has " ++ toString digits ++
    " digits; use sys.set_int_max_str_digits() to increase the limit"

def Fault.text : Fault → String
  | expectingValue => "Expecting value"
  | extraData => "Extra data"
  | expectingComma => "Expecting ',' delimiter"
  | expectingColon => "Expecting ':' delimiter"
  | expectingName => "Expecting property name enclosed in double quotes"
  | openString => "Unterminated string starting at"
  | controlCharacter => "Invalid control character at"
  | badEscape => "Invalid \\escape"
  | badHexEscape => "Invalid \\uXXXX escape"
  | byteOrderMark => "Unexpected UTF-8 BOM (decode using utf-8-sig)"
  | integerTooLong digits => integerTooLongText digits
  | nestedTooDeep during => "maximum recursion depth exceeded" ++ during

/-- A fault and the number of characters before it. -/
structure Misread where
  fault : Fault
  position : Nat
  deriving DecidableEq, Repr

/-- The fault with line, column and position; an overlong integer is reported without a place. -/
def Misread.message (text : List Char) (m : Misread) : String :=
  match m.fault with
  | .integerTooLong _ | .nestedTooDeep _ => m.fault.text
  | _ =>
    let before := text.take m.position
    let line := before.count '\n' + 1
    let column := (before.reverse.takeWhile (· != '\n')).length + 1
    m.fault.text ++ ": line " ++ toString line ++ " column " ++ toString column ++ " (char " ++
      toString m.position ++ ")"

/-- What is left of the text, with the number of characters already read. -/
structure Cursor where
  pos : Nat
  rest : List Char

def Cursor.skip (c : Cursor) (n : Nat) : Cursor := ⟨c.pos + n, c.rest.drop n⟩

def isSpacing (c : Char) : Bool := c == ' ' || c == '\t' || c == '\n' || c == '\r'

def Cursor.skipSpacing (c : Cursor) : Cursor := c.skip (c.rest.takeWhile isSpacing).length

abbrev Step (α : Type) := Except Misread (α × Cursor)

def hexValue? (c : Char) : Option Nat :=
  if isAsciiDigit c then some (c.toNat - 48)
  else if 'a' ≤ c && c ≤ 'f' then some (c.toNat - 87)
  else if 'A' ≤ c && c ≤ 'F' then some (c.toNat - 55)
  else none

def hexBlock? (s : List Char) : Option Nat :=
  if s.length < 4 then none
  else (s.take 4).foldl (fun acc c => acc.bind fun n => (hexValue? c).map (16 * n + ·)) (some 0)

def simpleEscape? : Char → Option Char
  | '"' => some '"'
  | '\\' => some '\\'
  | '/' => some '/'
  | 'b' => some (Char.ofNat 8)
  | 'f' => some (Char.ofNat 12)
  | 'n' => some '\n'
  | 'r' => some '\r'
  | 't' => some '\t'
  | _ => none

/-- The low half of a surrogate pair that follows a high one. -/
def lowSurrogate? : List Char → Option Nat
  | '\\' :: 'u' :: s => (hexBlock? s).bind fun n =>
    if 0xDC00 ≤ n && n < 0xE000 && 4 < s.length then some n else none
  | _ => none

/-- The rest of a string up to its closing quote; `start` is the place of the opening one and `out`
what is read so far, reversed. -/
def readString (start : Nat) : Nat → List Char → Cursor → Step String
  | 0, _, _ => .error ⟨.openString, start⟩
  | fuel + 1, out, ⟨pos, rest⟩ => match rest with
    | [] => .error ⟨.openString, start⟩
    | '"' :: s => .ok (String.ofList out.reverse, ⟨pos + 1, s⟩)
    | '\\' :: 'u' :: s =>
      if s.length ≤ 4 then .error ⟨.badHexEscape, pos + 1⟩
      else match hexBlock? s with
        | none => .error ⟨.badHexEscape, pos + 1⟩
        | some n =>
          if 0xD800 ≤ n && n < 0xDC00 then match lowSurrogate? (s.drop 4) with
            | some m => readString start fuel
                (Char.ofNat (0x10000 + (n - 0xD800) * 1024 + (m - 0xDC00)) :: out)
                ⟨pos + 12, s.drop 10⟩
            | none => readString start fuel (Char.ofNat 0xFFFD :: out) ⟨pos + 6, s.drop 4⟩
          else if 0xDC00 ≤ n && n < 0xE000 then
            readString start fuel (Char.ofNat 0xFFFD :: out) ⟨pos + 6, s.drop 4⟩
          else readString start fuel (Char.ofNat n :: out) ⟨pos + 6, s.drop 4⟩
    | ['\\'] => .error ⟨.openString, start⟩
    | '\\' :: c :: s => match simpleEscape? c with
      | some d => readString start fuel (d :: out) ⟨pos + 2, s⟩
      | none => .error ⟨.badEscape, pos⟩
    | c :: s =>
      if c.toNat < 32 then .error ⟨.controlCharacter, pos⟩
      else readString start fuel (c :: out) ⟨pos + 1, s⟩

/-- The digits of an integer part: a lone zero, or digits that start with another. -/
def wholePart : List Char → List Char
  | '0' :: _ => ['0']
  | s => s.takeWhile isAsciiDigit

/-- A point and at least one digit. -/
def fractionPart : List Char → List Char
  | '.' :: s => match s.takeWhile isAsciiDigit with
    | [] => []
    | ds => '.' :: ds
  | _ => []

/-- An exponent mark, perhaps a sign, and at least one digit. -/
def exponentPart : List Char → List Char
  | c :: s =>
    if c == 'e' || c == 'E' then
      let (sign, s) := match s with
        | '-' :: r => (['-'], r)
        | '+' :: r => (['+'], r)
        | r => ([], r)
      match s.takeWhile isAsciiDigit with
      | [] => []
      | ds => c :: sign ++ ds
    else []
  | [] => []

def readNumber (c : Cursor) : Step Literal :=
  let (sign, s) := match c.rest with
    | '-' :: s => (['-'], s)
    | s => ([], s)
  let whole := wholePart s
  if whole.isEmpty then .error ⟨.expectingValue, c.pos⟩
  else
    let s := s.drop whole.length
    let frac := fractionPart s
    let s := s.drop frac.length
    let expo := exponentPart s
    let text := sign ++ whole ++ frac ++ expo
    let next := c.skip text.length
    if frac.isEmpty && expo.isEmpty then
      if maxIntegerDigits < whole.length then .error ⟨.integerTooLong whole.length, c.pos⟩
      else
        let n : Int := digitsValue whole
        .ok (.int (if sign.isEmpty then n else -n), next)
    else match readScientific? (whole ++ frac ++ expo) with
      | some d => .ok (.float (d.toFloat (!sign.isEmpty)), next)
      | none => .error ⟨.expectingValue, c.pos⟩

/-- A constant at the cursor, with the length of its name. -/
def constant? (s : List Char) : Option (Literal × Nat) :=
  if "null".toList.isPrefixOf s then some (.null, 4)
  else if "true".toList.isPrefixOf s then some (.bool true, 4)
  else if "false".toList.isPrefixOf s then some (.bool false, 5)
  else if "NaN".toList.isPrefixOf s then some (.float (0.0 / 0.0), 3)
  else if "Infinity".toList.isPrefixOf s then some (.float (infinity false), 8)
  else if "-Infinity".toList.isPrefixOf s then some (.float (infinity true), 9)
  else none

mutual

/-- One value at the cursor, with at most `depth` lists and records inside each other. -/
def readValue : Nat → Nat → Cursor → Step Literal
  | 0, _, c => .error ⟨.expectingValue, c.pos⟩
  | fuel + 1, depth, c => match c.rest with
    | [] => .error ⟨.expectingValue, c.pos⟩
    | '"' :: _ => match readString c.pos (c.rest.length + 1) [] (c.skip 1) with
      | .error m => .error m
      | .ok (s, next) => .ok (.str s, next)
    | '[' :: _ =>
      if depth = 0 then
        .error ⟨.nestedTooDeep " while decoding a JSON array from a unicode string", c.pos⟩
      else
      let c := (c.skip 1).skipSpacing
      match c.rest with
      | ']' :: _ => .ok (.list [], c.skip 1)
      | _ => match readItems fuel (depth - 1) c with
        | .error m => .error m
        | .ok (items, next) => .ok (.list items, next)
    | '{' :: _ =>
      if depth = 0 then
        .error ⟨.nestedTooDeep " while decoding a JSON object from a unicode string", c.pos⟩
      else
      let c := (c.skip 1).skipSpacing
      match c.rest with
      | '}' :: _ => .ok (.record [], c.skip 1)
      | _ => match readFields fuel (depth - 1) [] c with
        | .error m => .error m
        | .ok (fields, next) => .ok (.record fields, next)
    | s => match constant? s with
      | some (v, n) => .ok (v, c.skip n)
      | none => readNumber c

/-- The items of a list that is not empty, through the closing bracket. -/
def readItems : Nat → Nat → Cursor → Step (List Literal)
  | 0, _, c => .error ⟨.expectingValue, c.pos⟩
  | fuel + 1, depth, c => match readValue fuel depth c with
    | .error m => .error m
    | .ok (v, next) =>
      let next := next.skipSpacing
      match next.rest with
      | ']' :: _ => .ok ([v], next.skip 1)
      | ',' :: _ => match readItems fuel depth (next.skip 1).skipSpacing with
        | .error m => .error m
        | .ok (vs, last) => .ok (v :: vs, last)
      | _ => .error ⟨.expectingComma, next.pos⟩

/-- The fields of a record that is not empty, through the closing bracket. -/
def readFields : Nat → Nat → List (String × Literal) → Cursor →
    Step (List (String × Literal))
  | 0, _, _, c => .error ⟨.expectingName, c.pos⟩
  | fuel + 1, depth, done, c => match c.rest with
    | '"' :: _ => match readString c.pos (c.rest.length + 1) [] (c.skip 1) with
      | .error m => .error m
      | .ok (name, next) =>
        let next := next.skipSpacing
        match next.rest with
        | ':' :: _ => match readValue fuel depth (next.skip 1).skipSpacing with
          | .error m => .error m
          | .ok (v, next) =>
            let done := putField name v done
            let next := next.skipSpacing
            match next.rest with
            | '}' :: _ => .ok (done, next.skip 1)
            | ',' :: _ => readFields fuel depth done (next.skip 1).skipSpacing
            | _ => .error ⟨.expectingComma, next.pos⟩
        | _ => .error ⟨.expectingColon, next.pos⟩
    | _ => .error ⟨.expectingName, c.pos⟩

end

/-- How many lists and records may stand inside each other. -/
def maxNesting : Nat := 985

/-- The literal that a whole text denotes. -/
def read (text : List Char) : Except Misread Literal :=
  match text with
  | c :: _ =>
    if c.toNat == 0xFEFF then .error ⟨.byteOrderMark, 0⟩
    else finish (readValue (2 * text.length + 2) maxNesting (Cursor.skipSpacing ⟨0, text⟩))
  | [] => .error ⟨.expectingValue, 0⟩
where
  /-- Nothing but spacing may follow. -/
  finish : Step Literal → Except Misread Literal
    | .error m => .error m
    | .ok (v, next) =>
      let next := next.skipSpacing
      if next.rest.isEmpty then .ok v else .error ⟨.extraData, next.pos⟩

end Simultaneous.Literal
