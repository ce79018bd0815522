import Simultaneous.Text.Character

/-!
Cutting a block of text into equations: at line ends and semicolons, and at commas outside all
brackets.
-/

namespace Simultaneous.Text

/-- The depth of open brackets after one more character; surplus closers do not count. -/
def depthAfter (depth : Nat) (c : Char) : Nat :=
  if c == '(' || c == '[' || c == '{' then depth + 1
  else if c == ')' || c == ']' || c == '}' then depth - 1
  else depth

/-- Cut at the commas of depth zero; `word` is the current part, reversed. -/
def cutCommas : Nat → List Char → List Char → List (List Char)
  | _, word, [] => [word.reverse]
  | depth, word, c :: s =>
    if c == ',' && depth == 0 then word.reverse :: cutCommas depth [] s
    else cutCommas (depthAfter depth c) (c :: word) s

/-- Parts between top-level commas, trimmed, blank ones left out. -/
def splitCommas (s : List Char) : List (List Char) :=
  ((cutCommas 0 [] s).map trim).filter (!·.isEmpty)

/-- Every end of a line as a line feed, however it is written. -/
def lineFeeds : List Char → List Char
  | '\r' :: '\n' :: s => '\n' :: lineFeeds s
  | '\r' :: s => '\n' :: lineFeeds s
  | c :: s => c :: lineFeeds s
  | [] => []

def isSeparator (c : Char) : Bool := c == '\n' || c == '\r' || c == ';'

def splitEquations (s : List Char) : List (List Char) :=
  (pieces isSeparator s).flatMap splitCommas

end Simultaneous.Text
