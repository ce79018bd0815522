/-!
Roots and prime factors of natural numbers, as far as roots of numbers need them.
-/

namespace Simultaneous.Algebra

/-- The largest `r` below `high` and from `low` on with `r ^ k ≤ n`, by halving. -/
def rootBetween (n k : Nat) : Nat → Nat → Nat → Nat
  | 0, low, _ => low
  | fuel + 1, low, high =>
    if high ≤ low + 1 then low
    else
      let mid := (low + high) / 2
      if Nat.pow mid k ≤ n then rootBetween n k fuel mid high else rootBetween n k fuel low mid

/-- The integer part of the `k`-th root. -/
def floorRoot (n k : Nat) : Nat :=
  if k == 0 then n
  else if k == 1 then n
  else
    let bits := Nat.log2 n / k + 2
    rootBetween n k (bits + 2) 0 (Nat.pow 2 bits)

/-- The `k`-th root of a perfect power. -/
def exactRoot? (n k : Nat) : Option Nat :=
  let r := floorRoot n k
  if Nat.pow r k == n then some r else none

/-- Divide `p` out of `n`, counting. -/
def divideOut (p : Nat) : Nat → Nat → Nat → Nat × Nat
  | 0, n, count => (n, count)
  | fuel + 1, n, count =>
    if n != 0 && n % p == 0 then divideOut p fuel (n / p) (count + 1) else (n, count)

/-- Trial division from `p` on, over odd candidates; what is left over counts as a prime. -/
def trialDivision : Nat → Nat → Nat → List (Nat × Nat)
  | 0, _, n => if 1 < n then [(n, 1)] else []
  | fuel + 1, p, n =>
    if n ≤ 1 then []
    else if n < p * p then [(n, 1)]
    else
      let (m, count) := divideOut p (Nat.log2 n + 1) n 0
      let rest := trialDivision fuel (if p == 2 then 3 else p + 2) m
      if count == 0 then rest else (p, count) :: rest

/-- Prime factors up to two to the fifteenth. -/
def primeFactors (n : Nat) : List (Nat × Nat) := trialDivision 16384 2 n

/-- How often `p` divides `n`, for `p` at least two and `n` not zero. -/
def multiplicity (p n : Nat) : Nat := (divideOut p (Nat.log2 n + 1) n 0).2

end Simultaneous.Algebra
