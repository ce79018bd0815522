/-!
Balance of round, square and curly brackets.
-/

namespace Simultaneous.Text

def closerOf? : Char → Option Char
  | '(' => some ')'
  | '[' => some ']'
  | '{' => some '}'
  | _ => none

def isCloser (c : Char) : Bool := c == ')' || c == ']' || c == '}'

/-- Where the brackets of a text go wrong. -/
inductive Balance
  | balanced
  | broken (position : Nat)
  deriving DecidableEq, Repr

/-- Scan with the stack of awaited closers, each with the position of its opener. A wrong or
unexpected closer is reported where it stands, else the outermost opener left open. -/
def scanBrackets : List (Char × Nat) → Nat → List Char → Balance
  | stack, _, [] => match stack.getLast? with
    | none => .balanced
    | some (_, at₀) => .broken at₀
  | stack, i, c :: s => match closerOf? c with
    | some d => scanBrackets ((d, i) :: stack) (i + 1) s
    | none =>
      if isCloser c then match stack with
        | [] => .broken i
        | (d, _) :: rest => if d = c then scanBrackets rest (i + 1) s else .broken i
      else scanBrackets stack (i + 1) s

def balance (s : List Char) : Balance := scanBrackets [] 0 s

end Simultaneous.Text
