/-!
Doubles as integers times powers of two, and rounding of quotients to the nearest double. All
arithmetic is on natural numbers; a tie goes to the even neighbour.
-/

namespace Simultaneous.Decimal

/-- `n / d` to the nearest natural number, a tie to the even one. -/
def roundDiv (n d : Nat) : Nat :=
  let q := n / d
  let r := n % d
  if 2 * r < d then q else if d < 2 * r then q + 1 else q + q % 2

/-- A finite double: a sign and `mant * 2 ^ exp`. -/
structure Binary where
  neg : Bool
  mant : Nat
  exp : Int
  deriving DecidableEq, Repr

def ofFloat? (x : Float) : Option Binary :=
  let bits := x.toBits.toNat
  let neg := decide (bits / Nat.pow 2 63 = 1)
  let field : Nat := bits / Nat.pow 2 52 % 2048
  let frac : Nat := bits % Nat.pow 2 52
  if field == 2047 then none
  else if field == 0 then some ⟨neg, frac, -1074⟩
  else some ⟨neg, frac + Nat.pow 2 52, (field : Int) - 1075⟩

def signBit (neg : Bool) : Nat := if neg then Nat.pow 2 63 else 0

def infinity (neg : Bool) : Float := Float.ofBits (UInt64.ofNat (signBit neg + 2047 * Nat.pow 2 52))

/-- The quotient `n / d` in units of `2 ^ q`, rounded. -/
def inUnits (n d : Nat) (q : Int) : Nat :=
  if 0 ≤ q then roundDiv n (d * Nat.pow 2 q.toNat) else roundDiv (n * Nat.pow 2 (-q).toNat) d

/-- The double nearest to `± n / d`, for `d` positive; beyond the largest it is an infinity. -/
def nearest (neg : Bool) (n d : Nat) : Float :=
  if n == 0 then Float.ofBits (UInt64.ofNat (signBit neg))
  else
    let k : Int := (Nat.log2 n : Int) - Nat.log2 d
    let below :=
      if 0 ≤ k then decide (n < d * Nat.pow 2 k.toNat)
      else decide (n * Nat.pow 2 (-k).toNat < d)
    let q := max ((if below then k - 1 else k) - 52) (-1074)
    let r := inUnits n d q
    let (r, q) := if r == Nat.pow 2 53 then (Nat.pow 2 52, q + 1) else (r, q)
    if r < Nat.pow 2 52 then Float.ofBits (UInt64.ofNat (signBit neg + r))
    else if 971 < q then infinity neg
    else
      let field := (q + 1075).toNat
      Float.ofBits (UInt64.ofNat (signBit neg + field * Nat.pow 2 52 + (r - Nat.pow 2 52)))

def nearestRat (q : Rat) : Float := nearest (q.num < 0) q.num.natAbs q.den

/-- The nearest double of an integer, or nothing beyond the largest double. -/
def ofInt? (n : Int) : Option Float :=
  let x := nearest (n < 0) n.natAbs 1
  if x.isInf then none else some x

/-- A finite double as a quotient of natural numbers. -/
def Binary.ratio (b : Binary) : Nat × Nat :=
  if 0 ≤ b.exp then (b.mant * Nat.pow 2 b.exp.toNat, 1) else (b.mant, Nat.pow 2 (-b.exp).toNat)

def toRat? (x : Float) : Option Rat :=
  (ofFloat? x).map fun b =>
    let (n, d) := b.ratio
    mkRat (if b.neg then -(n : Int) else n) d

/-- Raise `k` while `n / d` is at least `10 ^ k`. -/
def climb (n d : Nat) : Nat → Int → Int
  | 0, k => k
  | fuel + 1, k =>
    let reached := if 0 ≤ k then decide (d * Nat.pow 10 k.toNat ≤ n)
      else decide (d ≤ n * Nat.pow 10 (-k).toNat)
    if reached then climb n d fuel (k + 1) else k

/-- The number of digits before the point of `n / d`: the least `k` with `n / d < 10 ^ k`. -/
def magnitude (n d : Nat) : Int :=
  let k : Int := (Nat.log2 n : Int) - Nat.log2 d
  climb n d 8 (k * 30103 / 100000 - 2)

/-- `n / d` in units of `10 ^ p`, rounded down, with what is left over a common denominator. -/
def floorUnits (n d : Nat) (p : Int) : Nat × Nat × Nat :=
  let (n, d) := if 0 ≤ p then (n, d * Nat.pow 10 p.toNat) else (n * Nat.pow 10 (-p).toNat, d)
  (n / d, n % d, d)

/-- `n / d` rounded to `digits` significant digits, with the power of ten of the last one. -/
def significant (n d digits : Nat) : Nat × Int :=
  let p := magnitude n d - digits
  let (n', d') := if 0 ≤ p then (n, d * Nat.pow 10 p.toNat) else (n * Nat.pow 10 (-p).toNat, d)
  let c := roundDiv n' d'
  if c == Nat.pow 10 digits then (Nat.pow 10 (digits - 1), p + 1) else (c, p)

end Simultaneous.Decimal
