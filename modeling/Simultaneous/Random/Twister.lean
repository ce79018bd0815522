/-!
The Mersenne twister on 32-bit words: seeding by an array of words, and doubles of 53 random bits.
-/

namespace Simultaneous.Random

/-- The 624 words of the state and the number of them already given out. -/
structure Twister where
  words : Array UInt32
  used : Nat

namespace Twister

def size : Nat := 624

/-- Fill the state from one word. -/
def plant (seed : UInt32) : Array UInt32 :=
  ((List.range (size - 1)).foldl (fun (acc : Array UInt32 × UInt32) i =>
    let w := (1812433253 : UInt32) * (acc.2 ^^^ (acc.2 >>> 30)) + UInt32.ofNat (i + 1)
    (acc.1.push w, w)) (#[seed], seed)).1

/-- State while an array of words is mixed in. -/
structure Mixing where
  words : Array UInt32
  i : Nat
  j : Nat

/-- Move to the next place; past the last one the first word takes over the last. -/
def Mixing.advance (m : Mixing) : Mixing :=
  if m.i + 1 < size then { m with i := m.i + 1 }
  else { m with words := m.words.setIfInBounds 0 (m.words.getD (size - 1) 0), i := 1 }

def Mixing.absorb (key : Array UInt32) (m : Mixing) : Mixing :=
  let before := m.words.getD (m.i - 1) 0
  let w := (m.words.getD m.i 0 ^^^ ((before ^^^ (before >>> 30)) * 1664525)) +
    key.getD m.j 0 + UInt32.ofNat m.j
  let m := { m with words := m.words.setIfInBounds m.i w }.advance
  { m with j := if m.j + 1 < key.size then m.j + 1 else 0 }

def Mixing.spread (m : Mixing) : Mixing :=
  let before := m.words.getD (m.i - 1) 0
  let w := (m.words.getD m.i 0 ^^^ ((before ^^^ (before >>> 30)) * 1566083941)) -
    UInt32.ofNat m.i
  { m with words := m.words.setIfInBounds m.i w }.advance

def ofKey (key : Array UInt32) : Twister :=
  let m : Mixing := ⟨plant 19650218, 1, 0⟩
  let m := (max size key.size).repeat (Mixing.absorb key) m
  let m := (size - 1).repeat Mixing.spread m
  ⟨m.words.setIfInBounds 0 0x80000000, size⟩

/-- The 32-bit words of a number, lowest first; zero has one word. -/
def wordsOf (n : Nat) : Array UInt32 :=
  ((List.range (Nat.log2 n / 32 + 1)).map fun i =>
    UInt32.ofNat (n / Nat.pow 2 (32 * i) % Nat.pow 2 32)).toArray

/-- Numbers of opposite sign give the same stream. -/
def ofSeed (seed : Int) : Twister := ofKey (wordsOf seed.natAbs)

def twist (upper lower : UInt32) : UInt32 :=
  let y := (upper &&& 0x80000000) ||| (lower &&& 0x7fffffff)
  (y >>> 1) ^^^ (if y &&& 1 == 0 then 0 else 0x9908b0df)

/-- The next 624 words. -/
def refill (words : Array UInt32) : Array UInt32 :=
  (List.range size).foldl (fun ws k =>
    ws.setIfInBounds k (ws.getD ((k + 397) % size) 0 ^^^
      twist (ws.getD k 0) (ws.getD ((k + 1) % size) 0))) words

def temper (y : UInt32) : UInt32 :=
  let y := y ^^^ (y >>> 11)
  let y := y ^^^ ((y <<< 7) &&& 0x9d2c5680)
  let y := y ^^^ ((y <<< 15) &&& 0xefc60000)
  y ^^^ (y >>> 18)

def word (t : Twister) : UInt32 × Twister :=
  let t := if t.used < size then t else ⟨refill t.words, 0⟩
  (temper (t.words.getD t.used 0), { t with used := t.used + 1 })

/-- A double of the unit interval, from the upper bits of two words. -/
def unit (t : Twister) : Float × Twister :=
  let (a, t) := t.word
  let (b, t) := t.word
  ((Float.ofNat ((a >>> 5).toNat * 67108864 + (b >>> 6).toNat)) / 9007199254740992.0, t)

/-- Several doubles in a row. -/
def units : Nat → Twister → List Float × Twister
  | 0, t => ([], t)
  | n + 1, t =>
    let (x, t) := t.unit
    let (xs, t) := units n t
    (x :: xs, t)

theorem length_units (n : Nat) (t : Twister) : (t.units n).1.length = n := by
  induction n generalizing t with
  | zero => rfl
  | succ n ih => exact congrArg (· + 1) (ih _)

end Twister

end Simultaneous.Random
