/-!
The gamma function on doubles, by a sum of partial fractions for arguments from one half on and by
reflection below.
-/

namespace Simultaneous.Decimal

def gammaTerms : List (Float × Float) := [
  (676.5203681218851, 1), (-1259.1392167224028, 2), (771.32342877765313, 3),
  (-176.61502916214059, 4), (12.507343278686905, 5), (-0.13857109526572012, 6),
  (9.9843695780195716e-6, 7), (1.5056327351493116e-7, 8)]

/-- The ratio of a half turn to its radius. -/
def halfTurn : Float := 3.141592653589793

/-- The gamma function for arguments from one half on. -/
def gammaRight (x : Float) : Float :=
  let x := x - 1
  let a := gammaTerms.foldl (fun acc t => acc + t.1 / (x + t.2)) 0.99999999999980993
  let t := x + 7.5
  let p := Float.pow t ((x + 0.5) / 2)
  Float.sqrt (2 * halfTurn) * p * Float.exp (-t) * p * a

/-- The gamma function; whole numbers from one to 23 give exact factorials. -/
def gamma (x : Float) : Float :=
  if x == x.floor && 1 ≤ x && x ≤ 23 then
    (List.range (x.toUInt64.toNat - 1)).foldl (fun acc k => acc * Float.ofNat (k + 1)) 1
  else if x < 0.5 then halfTurn / (Float.sin (halfTurn * x) * gammaRight (1 - x))
  else gammaRight x

end Simultaneous.Decimal
