import Simultaneous.Formula.Calls
import Simultaneous.Formula.Grammar

/-!
The datum that a phrase stands for. Parts are worked out from left to right, and of a choice or a
logical word only the parts that are needed.
-/

namespace Simultaneous.Formula

open Datum

namespace Phrase

def isKeyword : Phrase → Bool
  | keyword _ _ => true
  | _ => false

mutual

def meaning : Phrase → Meaning Datum
  | nothing => .ok .nothing
  | truth b => .ok (.truth b)
  | dots => .ok .dots
  | int n => .ok (.int n)
  | text s => .ok (.text s)
  | bytes => .ok .bytes
  | name s => match named? s with
    | some d => .ok d
    | none => .error (.broken (.undefinedName s))
  | unary op a => do
    let a ← a.meaning
    Datum.unary op a
  | binary op a b => do
    let a ← a.meaning
    let b ← b.meaning
    Datum.binary op a b
  | compare first rest => do
    let a ← first.meaning
    comparisonMeaning a rest
  | both a b => do
    let a ← a.meaning
    if ← a.truthy then b.meaning else return a
  | either a b => do
    let a ← a.meaning
    if ← a.truthy then return a else b.meaning
  | negation a => do
    let a ← a.meaning
    let b ← a.truthy
    return .truth !b
  | choice a condition b => do
    let c ← condition.meaning
    if ← c.truthy then a.meaning else b.meaning
  | tuple items => return .tuple (← meanings items)
  | list items => return .list (← meanings items)
  | set items => do
    let xs ← meanings items
    if xs.all isHashable then return .set xs else senseless
  | record entries => do
    let es ← entryMeanings entries
    if es.all fun e => isHashable e.1 then return .record es else senseless
  | spread a => do
    let _ ← a.meaning
    senseless
  | call f args => do
    let f ← f.meaning
    let xs ← meanings args
    match f with
    | .callable g => if args.any isKeyword then senseless else callDatum g xs
    | _ => senseless
  | keyword _ a => a.meaning
  | select a _ => do
    let _ ← a.meaning
    senseless
  | item a index => do
    let a ← a.meaning
    let i ← index.meaning
    itemAt a i
  | slice bounds => do
    if ← boundsAreInts bounds then return .slice else senseless

/-- The meanings of items, the members of a collection that is spread out in its place. -/
def meanings : List Phrase → Meaning (List Datum)
  | [] => .ok []
  | spread a :: rest => do
    let a ← a.meaning
    let some xs := a.members? | senseless
    let ys ← meanings rest
    return xs ++ ys
  | a :: rest => do
    let x ← a.meaning
    let ys ← meanings rest
    return x :: ys

def entryMeanings : List (Phrase × Phrase) → Meaning (List (Datum × Datum))
  | [] => .ok []
  | (k, v) :: rest => do
    let k ← k.meaning
    let v ← v.meaning
    let es ← entryMeanings rest
    return (k, v) :: es

/-- A chain of comparisons ends with the first that does not hold. -/
def comparisonMeaning (a : Datum) : List (Relation × Phrase) → Meaning Datum
  | [] => .ok a
  | (r, p) :: rest => do
    let b ← p.meaning
    let d ← Datum.compare r a b
    if rest.isEmpty then return d
    else if ← d.truthy then comparisonMeaning b rest else return d

def boundsAreInts : List (Option Phrase) → Meaning Bool
  | [] => .ok true
  | none :: rest => boundsAreInts rest
  | some p :: rest => do
    let d ← p.meaning
    let more ← boundsAreInts rest
    return (d.int?.isSome || d.same .nothing) && more

end
end Phrase

end Simultaneous.Formula
