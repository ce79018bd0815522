import Simultaneous.Text.Alphabet

/-!
Classes of characters, and the small operations on texts that need them. Texts are lists of
characters throughout; strings appear where a message or an answer is finished.
-/

namespace Simultaneous.Text

/-- Spaces, tabs, line ends, separators and the blanks of other scripts. -/
def isBlank (c : Char) : Bool :=
  let n := c.toNat
  if n < 128 then (9 ≤ n && n ≤ 13) || (28 ≤ n && n ≤ 32)
  else n == 133 || n == 160 || n == 5760 || (8192 ≤ n && n ≤ 8202) || n == 8232 || n == 8233 ||
    n == 8239 || n == 8287 || n == 12288

def isAsciiDigit (c : Char) : Bool := '0' ≤ c && c ≤ '9'

def isAsciiLetter (c : Char) : Bool := ('a' ≤ c && c ≤ 'z') || ('A' ≤ c && c ≤ 'Z')

/-- The value of a decimal digit of any script. -/
def digitValue? (c : Char) : Option Nat :=
  if isAsciiDigit c then some (c.toNat - 48)
  else if c.toNat < 128 then none
  else (Alphabet.zeros.find? fun z => z ≤ c.toNat && c.toNat < z + 10).map (c.toNat - ·)

def isDigit (c : Char) : Bool := (digitValue? c).isSome

/-- Letters, numerals and the underscore: what stands inside a word. -/
def isWord (c : Char) : Bool :=
  if c.toNat < 128 then isAsciiDigit c || isAsciiLetter c || c == '_'
  else Alphabet.within Alphabet.alphanumeric c.toNat

/-- A word character that can stand first in a name. -/
def beginsName (c : Char) : Bool :=
  if c.toNat < 128 then isAsciiLetter c || c == '_'
  else Alphabet.within Alphabet.alphanumeric c.toNat &&
    !Alphabet.within Alphabet.midword c.toNat

/-- The character is shown as itself inside quotes. -/
def hasGlyph (c : Char) : Bool :=
  if c.toNat < 128 then 32 ≤ c.toNat && c.toNat < 127
  else !Alphabet.within Alphabet.glyphless c.toNat

/-- Lower case as far as it can produce ASCII letters: besides the ASCII capitals, the dotted
capital I and the Kelvin sign. -/
def lowerChar (c : Char) : List Char :=
  if 'A' ≤ c && c ≤ 'Z' then [Char.ofNat (c.toNat + 32)]
  else if c.toNat == 304 then ['i', Char.ofNat 775]
  else if c.toNat == 8490 then ['k']
  else [c]

def lower (s : List Char) : List Char := s.flatMap lowerChar

def trimStart : List Char → List Char
  | [] => []
  | c :: s => if isBlank c then trimStart s else c :: s

/-- Remove the blanks at the end. -/
def trimEnd : List Char → List Char
  | [] => []
  | c :: s => match trimEnd s with
    | [] => if isBlank c then [] else [c]
    | t => c :: t

def trim (s : List Char) : List Char := trimEnd (trimStart s)

/-- `p` occurs in `s` as a block of neighbours. -/
def occursIn (p : List Char) : List Char → Bool
  | [] => p.isEmpty
  | c :: s => p.isPrefixOf (c :: s) || occursIn p s

/-- Replace every run of blanks by a single space. -/
def singleSpaced : Bool → List Char → List Char
  | _, [] => []
  | inRun, c :: s =>
    if isBlank c then if inRun then singleSpaced true s else ' ' :: singleSpaced true s
    else c :: singleSpaced false s

/-- Cut at every character that satisfies `p`, keeping empty pieces. -/
def pieces (p : Char → Bool) : List Char → List (List Char)
  | [] => [[]]
  | c :: s => match pieces p s with
    | [] => [[]]
    | w :: ws => if p c then [] :: w :: ws else (c :: w) :: ws

def join (sep : String) (parts : List String) : String := String.intercalate sep parts

/-- Pad on the left with spaces up to a width counted in characters. -/
def padLeft (width : Nat) (s : String) : String :=
  String.ofList (List.replicate (width - s.length) ' ') ++ s

end Simultaneous.Text
