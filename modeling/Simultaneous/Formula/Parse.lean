import Simultaneous.Formula.Admission
import Simultaneous.Formula.Meaning
import Simultaneous.Formula.Plain

/-!
From text to expression: plain form, phrase, datum, admission. Expressions once read are remembered
by their plain form and are not examined again.
-/

namespace Simultaneous.Formula

open Algebra

mutual

/-- The levels of a phrase. -/
def Phrase.height : Phrase → Nat
  | .unary _ a | .negation a | .spread a | .keyword _ a | .select a _ => a.height + 1
  | .binary _ a b | .both a b | .either a b | .item a b => max a.height b.height + 1
  | .compare a rest => max a.height (heightOfRest rest) + 1
  | .choice a c b => max a.height (max c.height b.height) + 1
  | .tuple xs | .list xs | .set xs => heightOfAll xs + 1
  | .call f xs => max f.height (heightOfAll xs) + 1
  | _ => 0

def heightOfAll : List Phrase → Nat
  | [] => 0
  | x :: xs => max x.height (heightOfAll xs)

def heightOfRest : List (Relation × Phrase) → Nat
  | [] => 0
  | (_, x) :: xs => max x.height (heightOfRest xs)

end

/-- Phrases with more levels than this are given up. -/
def maxPhraseHeight : Nat := 2960

/-- The datum of a plain form. -/
def datumOf (s : List Char) : Attempt Datum :=
  match readPhrase? s with
  | none => .error (.refused (.unreadable (String.ofList s)))
  | some p =>
    if maxPhraseHeight < p.height then .error (.broken (.nestedTooDeep " during compilation"))
    else match p.meaning with
      | .ok d => .ok d
      | .error .senseless => .error (.refused (.unreadable (String.ofList s)))
      | .error (.broken b) => .error (.broken b)

/-- The admitted expression of a plain form. -/
def parsePlain (limits : Settings) (s : List Char) : Attempt Expr := do
  let d ← datumOf s
  (acceptDatum limits d).mapError .refused

/-- Expressions by plain form, the latest used first. -/
structure Memory where
  capacity : Nat := 1024
  entries : List (String × Expr) := []

def Memory.find? (m : Memory) (s : String) : Option Expr := (m.entries.find? (·.1 == s)).map (·.2)

def Memory.keep (m : Memory) (s : String) (e : Expr) : Memory :=
  { m with entries := ((s, e) :: m.entries.filter (·.1 != s)).take m.capacity }

/-- Read a plain form, or recall it. -/
def Memory.parse (m : Memory) (limits : Settings) (s : List Char) : Attempt Expr × Memory :=
  let key := String.ofList s
  match m.find? key with
  | some e => (.ok e, m.keep key e)
  | none => match parsePlain limits s with
    | .ok e => (.ok e, m.keep key e)
    | .error f => (.error f, m)

end Simultaneous.Formula
