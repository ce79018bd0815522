/-!
Phrases: the grammatical structure of a formula. Besides arithmetic there are comparisons, logical
words, choices, collections, calls and selections.
-/

namespace Simultaneous.Formula

inductive UnarySign
  | plus | minus | invert
  deriving DecidableEq, Repr

inductive BinarySign
  | add | sub | mul | div | floorDiv | mod | pow | matMul | shiftLeft | shiftRight | both | either
  | exclusive
  deriving DecidableEq, Repr

inductive Relation
  | equal | unequal | less | lessEqual | greater | greaterEqual | isSame | isOther | isIn | isNotIn
  deriving DecidableEq, Repr

inductive Phrase
  | nothing
  | truth (b : Bool)
  | dots
  | int (n : Nat)
  | text (s : String)
  | bytes
  | name (s : String)
  | unary (op : UnarySign) (a : Phrase)
  | binary (op : BinarySign) (a b : Phrase)
  | compare (first : Phrase) (rest : List (Relation × Phrase))
  | both (a b : Phrase)
  | either (a b : Phrase)
  | negation (a : Phrase)
  /-- The first phrase if the second holds, else the third. -/
  | choice (a condition b : Phrase)
  | tuple (items : List Phrase)
  | list (items : List Phrase)
  | set (items : List Phrase)
  | record (entries : List (Phrase × Phrase))
  | spread (a : Phrase)
  | call (f : Phrase) (args : List Phrase)
  | keyword (name : String) (a : Phrase)
  | select (a : Phrase) (name : String)
  | item (a index : Phrase)
  | slice (bounds : List (Option Phrase))
  deriving Inhabited

end Simultaneous.Formula
