/-!
Sorting a list by merging. Operands that compare equal keep their places.
-/

namespace Simultaneous.Algebra

variable {α : Type}

/-- Place `x` and everything of `rest` into a sorted list; `whole` is `x` with what `rest` merges.
-/
def mergeInto (before : α → α → Bool) (x : α) (rest : List α → List α) (whole : List α) :
    List α → List α
  | [] => whole
  | y :: ys =>
    if before y x then y :: mergeInto before x rest whole ys else x :: rest (y :: ys)

/-- Merge two sorted lists; `before` is strict, and on a tie the first list goes first. -/
def merge (before : α → α → Bool) : List α → List α → List α
  | [], ys => ys
  | x :: xs, ys => mergeInto before x (merge before xs) (x :: xs) ys

def mergePairs (before : α → α → Bool) : List (List α) → List (List α)
  | a :: b :: rest => merge before a b :: mergePairs before rest
  | rest => rest

/-- Merge neighbours until one list is left; `fuel` bounds the rounds. -/
def mergeAll (before : α → α → Bool) : Nat → List (List α) → List α
  | _, [] => []
  | _, [xs] => xs
  | 0, runs => runs.flatten
  | fuel + 1, runs => mergeAll before fuel (mergePairs before runs)

def sortBy (before : α → α → Bool) (xs : List α) : List α :=
  mergeAll before xs.length (xs.map fun x => [x])

/-- Join neighbours that `same` says belong together. -/
def joinRuns (same : α → α → Bool) (join : α → α → α) : List α → List α
  | [] => []
  | x :: xs => match joinRuns same join xs with
    | [] => [x]
    | y :: ys => if same x y then join x y :: ys else x :: y :: ys

end Simultaneous.Algebra
