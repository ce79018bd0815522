import Simultaneous.CommandLine.Flag

/-!
Reading the words of a command line. Options may be abbreviated as long as one name fits, switches
of one letter may be written together, and a value may follow in the next word or in the same one.
-/

namespace Simultaneous.CommandLine

open Text

/-- What is wrong with a command line. -/
inductive Misuse
  | ambiguous (word : String) (fitting : List String)
  | missingValue (o : Flag)
  | needlessValue (o : Flag) (value : String)
  | unreadable (o : Flag) (kind value : String)
  | notOffered (o : Flag) (value : String) (choices : List String)
  | unknown (words : List String)
  deriving DecidableEq, Repr

def Misuse.message : Misuse → String
  | ambiguous word fitting =>
      "ambiguous option: " ++ word ++ " could match " ++ join ", " fitting
  | missingValue o => "argument " ++ o.label ++ ": expected one argument"
  | needlessValue o value =>
      "argument " ++ o.label ++ ": ignored explicit argument " ++ quoted value
  | unreadable o kind value =>
      "argument " ++ o.label ++ ": invalid " ++ kind ++ " value: " ++ quoted value
  | notOffered o value choices => "argument " ++ o.label ++ ": invalid choice: " ++ quoted value ++
      " (choose from " ++ join ", " (choices.map quoted) ++ ")"
  | unknown words => "unrecognized arguments: " ++ join " " words

/-- Everything that a command line asks for. -/
structure Arguments where
  equations : Option String := none
  file : Option String := none
  asJson : Bool := false
  seed : Option Int := none
  maxIterations : Option Int := none
  stopping : Option Float := none
  retrySingular : Bool := false
  precision : Option Int := none
  operation : Option String := none
  matrixA : Option String := none
  matrixB : Option String := none
  randomSize : Option Int := none
  hideOperands : Bool := false
  asLiteral : Bool := false
  version : Bool := false
  logLevel : String := "WARNING"
  logFile : Option String := none

namespace Arguments

/-- Take a switch. -/
def switch (a : Arguments) : Flag → Arguments
  | .retrySingular => { a with retrySingular := true }
  | .noOperands => { a with hideOperands := true }
  | .literal => { a with asLiteral := true }
  | .version => { a with version := true }
  | _ => a

/-- Take an option with an integer. -/
def putInteger (a : Arguments) (n : Int) : Flag → Arguments
  | .seed => { a with seed := some n }
  | .maxIterations => { a with maxIterations := some n }
  | .precision => { a with precision := some n }
  | .randomSize => { a with randomSize := some n }
  | _ => a

/-- Take an option with a text. -/
def putText (a : Arguments) (s : String) : Flag → Arguments
  | .eval => { a with equations := some s }
  | .file => { a with file := some s }
  | .format => { a with asJson := s == "json" }
  | .matrixOp => { a with operation := some s }
  | .matrixA => { a with matrixA := some s }
  | .matrixB => { a with matrixB := some s }
  | .logLevel => { a with logLevel := s }
  | .logFile => { a with logFile := some s }
  | _ => a

/-- Take an option with its value. -/
def put (a : Arguments) (o : Flag) (value : String) : Except Misuse Arguments :=
  match o.argument with
  | .nothing => .error (.needlessValue o value)
  | .text _ => .ok (a.putText value o)
  | .choice choices =>
    if choices.contains value then .ok (a.putText value o)
    else .error (.notOffered o value choices)
  | .integer _ => match Decimal.readInt value.toList with
    | .ok n => .ok (a.putInteger n o)
    | .error _ => .error (.unreadable o "int" value)
  | .number _ => match Decimal.readFloat? value.toList with
    | some x => .ok { a with stopping := some x }
    | none => .error (.unreadable o "float" value)

end Arguments

/-- What follows the name of an option in the same word. -/
inductive Attached
  | nothing
  /-- A value after an equals sign. -/
  | value (text : String)
  /-- Letters right after the one of the option. -/
  | letters (text : String)

/-- What a word of the command line is. -/
inductive Word
  /-- Two dashes, after which nothing is an option. -/
  | dashes
  | plain (text : String)
  /-- Looks like an option, and is none. -/
  | strange (text : String)
  | option (o : Flag) (attached : Attached)

/-- A text cut at its first equals sign. -/
def cutAtEquals? (s : List Char) : Option (String × String) :=
  if s.contains '=' then
    some (String.ofList (s.takeWhile (· != '=')), String.ofList ((s.dropWhile (· != '=')).drop 1))
  else none

/-- A minus sign and a number without an exponent. -/
def isNegativeNumber : List Char → Bool
  | '-' :: s =>
    let rest := s.dropWhile isDigit
    match rest with
    | [] => !s.isEmpty
    | '.' :: fraction => !fraction.isEmpty && fraction.all isDigit
    | _ => false
  | _ => false

/-- The options whose names fit an abbreviation, with what is attached to it. -/
def fitting (word : List Char) : List (String × Flag × Attached) :=
  match word with
  | '-' :: '-' :: _ =>
    let (stem, attached) : List Char × Attached := match cutAtEquals? word with
      | some (stem, value) => (stem.toList, .value value)
      | none => (word, .nothing)
    (Flag.table.filter fun (n, _) => stem.isPrefixOf n.toList).map fun (n, o) => (n, o, attached)
  | _ =>
    Flag.table.filterMap fun (n, o) =>
      if n.toList == word.take 2 then some (n, o, .letters (String.ofList (word.drop 2)))
      else if word.isPrefixOf n.toList then some (n, o, .nothing)
      else none

/-- What a word is, before any two dashes. -/
def classify (text : String) : Except Misuse Word :=
  let word := text.toList
  if word.head? != some '-' then .ok (.plain text)
  else match Flag.ofName? text with
    | some o => .ok (.option o .nothing)
    | none =>
      if word.length == 1 then .ok (.plain text)
      else match (cutAtEquals? word).bind fun (n, v) => (Flag.ofName? n).map fun o => (o, v) with
        | some (o, v) => .ok (.option o (.value v))
        | none => match fitting word with
          | [(_, o, attached)] => .ok (.option o attached)
          | [] =>
            if isNegativeNumber word || word.contains ' ' then .ok (.plain text)
            else .ok (.strange text)
          | several => .error (.ambiguous text (several.map (·.1)))

/-- What all words are. -/
def classifyAll : List String → Except Misuse (List Word)
  | [] => .ok []
  | "--" :: ws => .ok (.dashes :: ws.map .plain)
  | w :: ws => do
    let x ← classify w
    let xs ← classifyAll ws
    return x :: xs

/-- How a word of options ends after its switches. -/
inductive Ending
  | complete
  /-- Letters that name no option. -/
  | leftover (text : String)
  | valued (o : Flag) (value : String)
  /-- The value of the option is to be the next word. -/
  | awaiting (o : Flag)

/-- Letters right after a switch: more switches, and at the end perhaps an option with its value. -/
def cluster (o : Flag) : List Char → Except Misuse (List Flag × Ending)
  | [] => .ok ([o], .complete)
  | c :: s =>
    if c == '-' then .error (.needlessValue o (String.ofList (c :: s)))
    else match Flag.ofName? (String.ofList ['-', c]), s with
      | none, s => .ok ([o], .leftover (String.ofList ('-' :: c :: s)))
      | some next, '=' :: v =>
        if next.isSwitch then .error (.needlessValue next (String.ofList v))
        else .ok ([o], .valued next (String.ofList v))
      | some next, s =>
        if next.isSwitch then do
          let (os, e) ← cluster next s
          return (o :: os, e)
        else .ok ([o], if s.isEmpty then .awaiting next else .valued next (String.ofList s))

/-- The switches of a word, and how it ends. -/
def unfold (o : Flag) : Attached → Except Misuse (List Flag × Ending)
  | .nothing => .ok (if o.isSwitch then ([o], .complete) else ([], .awaiting o))
  | .value v => if o.isSwitch then .error (.needlessValue o v) else .ok ([], .valued o v)
  | .letters s => if o.isSwitch then cluster o s.toList else .ok ([], .valued o s)

/-- A call for help ends the reading. -/
inductive Request
  | help
  | arguments (a : Arguments)

/-- Take switches in a row; whether one of them calls for help. -/
def switches (a : Arguments) : List Flag → Arguments × Bool
  | [] => (a, false)
  | o :: os => if o == .help then (a, true) else switches (a.switch o) os

/-- Read the words in order; `odd` are the ones that have no place, in reverse. -/
def readWords : Arguments → List String → List Word → Except Misuse Request
  | a, odd, [] => if odd.isEmpty then .ok (.arguments a) else .error (.unknown odd.reverse)
  | a, odd, .dashes :: ws => readWords a ("--" :: odd) ws
  | a, odd, .plain s :: ws => readWords a (s :: odd) ws
  | a, odd, .strange s :: ws => readWords a (s :: odd) ws
  | a, odd, .option o attached :: ws => do
    let (before, ending) ← unfold o attached
    let (taken, helps) := switches a before
    match ending, ws with
    | .awaiting last, .plain v :: ws =>
      if helps then return .help
      let a ← taken.put last v
      readWords a odd ws
    | .awaiting last, _ => .error (.missingValue last)
    | .valued last v, ws =>
      if helps then return .help
      let a ← taken.put last v
      readWords a odd ws
    | .leftover s, ws => if helps then return .help else readWords taken (s :: odd) ws
    | .complete, ws => if helps then return .help else readWords taken odd ws

/-- Read a command line. -/
def readArguments (words : List String) : Except Misuse Request := do
  let ws ← classifyAll words
  readWords {} [] ws

end Simultaneous.CommandLine
