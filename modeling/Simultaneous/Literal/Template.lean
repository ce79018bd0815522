import Simultaneous.Decimal.Form
import Simultaneous.Literal.Basic

/-!
Templates: texts with places for values. A percent sign opens a place; after it may stand a name in
round brackets, marks for sign and padding, a least width, a point with a precision, and last the
letter of a form. Two percent signs stand for one.
-/

namespace Simultaneous

/-- Why values do not go into a template. -/
inductive Misfit
  | unfinished
  | unfinishedName
  | widthTooBig
  | precisionTooBig
  | unknownLetter (letter : Char) (position : Nat)
  | tooFew
  | tooMany
  | unnamed
  | noSuchName (name : String)
  | widthNotInteger
  | notReal (letter : Char) (kind : String)
  | notInteger (letter : Char) (kind : String)
  | notCharacter
  | noSuchCharacter
  | notNumber (kind : String)
  | numberTooLarge
  | noWholeNumber (infinite : Bool)
  deriving DecidableEq, Repr

open Text

/-- A letter as a message names it, a question mark if it is none of the plain ones. -/
def Misfit.letterShown (c : Char) : String :=
  String.singleton (if 31 ≤ c.toNat && c.toNat < 126 then c else '?')

def Misfit.message : Misfit → String
  | unfinished => "incomplete format"
  | unfinishedName => "incomplete format key"
  | widthTooBig => "width too big"
  | precisionTooBig => "precision too big"
  | unknownLetter c position => "unsupported format character '" ++ letterShown c ++ "' (0x" ++
      String.ofList (Nat.toDigits 16 c.toNat) ++ ") at index " ++ toString position
  | tooFew => "not enough arguments for format string"
  | tooMany => "not all arguments converted during string formatting"
  | unnamed => "format requires a mapping"
  | noSuchName name => quoted name
  | widthNotInteger => "* wants int"
  | notReal letter kind => "%" ++ String.singleton letter ++
      " format: a real number is required, not " ++ kind
  | notInteger letter kind => "%" ++ String.singleton letter ++
      " format: an integer is required, not " ++ kind
  | notCharacter => "%c requires int or char"
  | noSuchCharacter => "%c arg not in range(0x110000)"
  | notNumber kind => "must be real number, not " ++ kind
  | numberTooLarge => "int too large to convert to float"
  | noWholeNumber infinite =>
      "cannot convert float " ++ (if infinite then "infinity" else "NaN") ++ " to integer"

namespace Template

/-- The values still to be placed, and the named values if there are any. -/
structure Supply where
  next : List Literal
  named : Option (List (String × Literal)) := none

/-- A list of values goes into the places one by one; a single record also serves by its names. -/
def Supply.ofArguments (args : List Literal) : Supply :=
  match args with
  | [.record (f :: fs)] => ⟨args, some (f :: fs)⟩
  | _ => ⟨args, none⟩

def Supply.take (s : Supply) : Except Misfit (Literal × Supply) :=
  match s.next with
  | [] => .error .tooFew
  | v :: rest => .ok (v, ⟨rest, s.named⟩)

/-- How a place wants its value written. -/
structure Place where
  left : Bool := false
  plus : Bool := false
  blank : Bool := false
  alternate : Bool := false
  zeros : Bool := false
  width : Nat := 0
  precision : Option Nat := none

/-- The name that stands before the bracket closing `depth` others, and what follows. -/
def takeName : Nat → List Char → List Char → Option (String × List Char)
  | _, _, [] => none
  | 0, name, ')' :: s => some (String.ofList name.reverse, s)
  | depth + 1, name, ')' :: s => takeName depth (')' :: name) s
  | depth, name, '(' :: s => takeName (depth + 1) ('(' :: name) s
  | depth, name, c :: s => takeName depth (c :: name) s

/-- A name makes its value the only one that is left. -/
def named (supply : Supply) : List Char → Except Misfit (Supply × List Char)
  | '(' :: s => match supply.named with
    | none => .error .unnamed
    | some fields => match takeName 0 [] s with
      | none => .error .unfinishedName
      | some (name, s) => match fields.find? (·.1 == name) with
        | none => .error (.noSuchName name)
        | some (_, v) => .ok (⟨[v], some fields⟩, s)
  | s => .ok (supply, s)

def marked (p : Place) : List Char → Place × List Char
  | '-' :: s => marked { p with left := true } s
  | '+' :: s => marked { p with plus := true } s
  | ' ' :: s => marked { p with blank := true } s
  | '#' :: s => marked { p with alternate := true } s
  | '0' :: s => marked { p with zeros := true } s
  | s => (p, s)

/-- A count in digits, or a value in place of them. -/
def count (limit : Nat) (tooBig : Misfit) (supply : Supply) :
    List Char → Except Misfit (Int × Supply × List Char)
  | '*' :: s => do
    let (v, supply) ← supply.take
    match v with
    | .int n => return (n, supply, s)
    | .bool b => return (if b then 1 else 0, supply, s)
    | _ => .error .widthNotInteger
  | s =>
    let n := (s.takeWhile isAsciiDigit).foldl (fun n c => 10 * n + (c.toNat - 48)) 0
    if limit < n then .error tooBig else .ok (n, supply, s.dropWhile isAsciiDigit)

/-- A place from its name to its precision. -/
def readPlace (supply : Supply) (s : List Char) : Except Misfit (Place × Supply × List Char) := do
  let (supply, s) ← named supply s
  let (p, s) := marked {} s
  let (n, supply, s) ← count 9223372036854775807 .widthTooBig supply s
  let p := { p with left := p.left || n < 0, width := n.natAbs }
  let (p, supply, s) ← match s with
    | '.' :: s => do
      let (n, supply, s) ← count 2147483647 .precisionTooBig supply s
      pure ({ p with precision := some n.toNat }, supply, s)
    | s => pure (p, supply, s)
  return (p, supply, match s with
    | 'h' :: s | 'l' :: s | 'L' :: s => s
    | s => s)

/-- Bring a text to the width of its place. Zeros go between what leads and the rest. -/
def Place.fit (p : Place) (zeros : Bool) (lead text : String) : String :=
  let missing := p.width - (lead.length + text.length)
  let fill := fun c => String.ofList (List.replicate missing c)
  if p.left then lead ++ text ++ fill ' '
  else if zeros then lead ++ fill '0' ++ text
  else fill ' ' ++ lead ++ text

def Place.sign (p : Place) (negative : Bool) : String :=
  if negative then "-" else if p.plus then "+" else if p.blank then " " else ""

/-- Characters beyond ASCII by their numbers. -/
def asciiOnly (s : String) : String :=
  String.ofList (s.toList.flatMap fun c =>
    if c.toNat < 128 then [c]
    else if c.toNat < 256 then '\\' :: 'x' :: hexDigits 2 c.toNat
    else if c.toNat < 65536 then '\\' :: 'u' :: hexDigits 4 c.toNat
    else '\\' :: 'U' :: hexDigits 8 c.toNat)

def Place.text (p : Place) (s : String) : String :=
  p.fit false "" (match p.precision with
    | some n => String.ofList (s.toList.take n)
    | none => s)

def capitals (s : String) : String := String.ofList (s.toList.map Char.toUpper)

/-- The whole part of a number. -/
def wholeOf (letter : Char) : Literal → Except Misfit Int
  | .int n => .ok n
  | .bool b => .ok (if b then 1 else 0)
  | .float x => match Decimal.toRat? x with
    | some q => .ok (if q < 0 then -((-q).floor) else q.floor)
    | none => .error (.noWholeNumber x.isInf)
  | v => .error (.notReal letter v.kind)

def integerOf (letter : Char) : Literal → Except Misfit Int
  | .int n => .ok n
  | .bool b => .ok (if b then 1 else 0)
  | v => .error (.notInteger letter v.kind)

def realOf (v : Literal) : Except Misfit Float :=
  match v with
  | .str _ | .null | .list _ | .record _ => .error (.notNumber v.kind)
  | v => v.toFloat.mapError fun _ => .numberTooLarge

/-- An integer in a base, with at least as many digits as the precision asks for. -/
def Place.integer (p : Place) (base : Nat) (mark : String) (n : Int) : String :=
  let ds := Nat.toDigits base n.natAbs
  p.fit p.zeros (p.sign (n < 0) ++ if p.alternate then mark else "")
    (String.ofList (List.replicate (p.precision.getD 0 - ds.length) '0' ++ ds))

def Place.real (p : Place) (form : Decimal.Form) (x : Float) : String :=
  match Decimal.ofFloat? x with
  | none => if x.isNaN then p.fit p.zeros (p.sign false) "nan"
    else p.fit p.zeros (p.sign (x < 0)) "inf"
  | some b => p.fit p.zeros (p.sign b.neg) (b.textIn form (p.precision.getD 6) p.alternate)

def Place.character (p : Place) : Literal → Except Misfit String
  | .str s => if s.length = 1 then .ok (p.fit false "" s) else .error .notCharacter
  | v => match integerOf 'c' v with
    | .ok n => if 0 ≤ n && n < 1114112
      then .ok (p.fit false "" (String.singleton (Char.ofNat n.toNat)))
      else .error .noSuchCharacter
    | .error _ => .error .notCharacter

/-- The value `v` in the form of a letter that stands at `position`. -/
def Place.write (p : Place) (letter : Char) (position : Nat) (v : Literal) :
    Except Misfit String :=
  match letter with
  | 's' => .ok (p.text v.plain)
  | 'r' => .ok (p.text v.shown)
  | 'a' => .ok (p.text (asciiOnly v.shown))
  | 'd' | 'i' | 'u' => (wholeOf letter v).map (p.integer 10 "")
  | 'o' => (integerOf letter v).map (p.integer 8 "0o")
  | 'x' => (integerOf letter v).map (p.integer 16 "0x")
  | 'X' => (integerOf letter v).map fun n => capitals (p.integer 16 "0x" n)
  | 'f' => (realOf v).map (p.real .places)
  | 'e' => (realOf v).map (p.real .exponent)
  | 'g' => (realOf v).map (p.real .digits)
  | 'F' => (realOf v).map fun x => capitals (p.real .places x)
  | 'E' => (realOf v).map fun x => capitals (p.real .exponent x)
  | 'G' => (realOf v).map fun x => capitals (p.real .digits x)
  | 'c' => p.character v
  | _ => .error (.unknownLetter letter position)

/-- Fill the places from the left; `fuel` is at least the number of characters, `size` the number
of characters of the whole template. -/
def fillFrom (size : Nat) : Nat → Supply → List Char → Except Misfit (List Char)
  | 0, _, _ => .ok []
  | _, supply, [] => if supply.next.isEmpty || supply.named.isSome then .ok [] else .error .tooMany
  | fuel + 1, supply, '%' :: s => do
    let (p, supply, s) ← readPlace supply s
    match s with
    | [] => .error .unfinished
    | '%' :: s => return '%' :: (← fillFrom size fuel supply s)
    | letter :: s =>
      let (v, supply) ← supply.take
      let t ← p.write letter (size - s.length - 1) v
      return t.toList ++ (← fillFrom size fuel supply s)
  | fuel + 1, supply, c :: s => return c :: (← fillFrom size fuel supply s)

/-- The template with its places filled. -/
def fill (template : String) (args : List Literal) : Except Misfit String :=
  let s := template.toList
  (fillFrom s.length (s.length + 1) (.ofArguments args) s).map String.ofList

end Template

end Simultaneous
