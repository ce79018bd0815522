import Simultaneous.Algebra.Simplify.Stack
import Simultaneous.Formula.Phrase
import Simultaneous.Formula.Tree
import Simultaneous.Failure

/-!
What a phrase can stand for. Only expressions are of use in an equation; all other data are named by
their kind when they are refused.
-/

namespace Simultaneous.Formula

open Algebra

/-- Names that can be called. -/
inductive Callable
  | function (f : Fn)
  | sqrt
  | symbol | integer | float | rational
  /-- Makes a function of a name. -/
  | maker
  | unknown (name : String)
  deriving DecidableEq, Repr

inductive Datum
  | expr (e : Expr)
  | mixed (m : Mixed)
  | nothing
  | truth (b : Bool)
  | int (n : Int)
  | text (s : String)
  | bytes
  | dots
  | tuple (items : List Datum)
  | list (items : List Datum)
  | set (items : List Datum)
  | record (entries : List (Datum × Datum))
  | callable (f : Callable)
  /-- A comparison left open. -/
  | relation (kind : String)
  /-- A logical combination left open, with the symbol that it negates, if it does. -/
  | logic (kind : String) (negated : Option Expr)
  /-- A settled comparison. -/
  | verdict (b : Bool)
  | slice
  deriving Inhabited

/-- Why a phrase has no value: it makes no sense, or it fails in a way that is not caught. -/
inductive Hitch
  | senseless
  | broken (reason : Breakage)
  deriving DecidableEq, Repr

abbrev Meaning := Except Hitch

namespace Datum

def senseless {α : Type} : Meaning α := .error .senseless

/-- An expression of which some part is none. -/
def mixture (t : Tree) : Meaning Datum :=
  if h : t.isScalar = false then .ok (mixed ⟨t, h⟩) else senseless

def kind : Datum → String
  | expr e => e.className
  | mixed _ => "Expr"
  | nothing => "NoneType"
  | truth _ => "bool"
  | int _ => "int"
  | text _ => "str"
  | bytes => "bytes"
  | dots => "ellipsis"
  | tuple _ => "tuple"
  | list _ => "list"
  | set _ => "set"
  | record _ => "dict"
  | callable (.function .exp) => "ExpMeta"
  | callable (.function _) => "FunctionClass"
  | callable .sqrt => "function"
  | callable .maker => "FunctionClass"
  | callable (.unknown _) => "UndefinedFunction"
  | callable _ => "type"
  | relation k => k
  | logic k _ => k
  | verdict true => "BooleanTrue"
  | verdict false => "BooleanFalse"
  | slice => "slice"

/-- A datum as a tree; all that is no expression is a single node. -/
def tree : Datum → Tree
  | expr e => .ofExpr e
  | mixed m => m.tree
  | d => .foreign d.kind

/-- A datum as an operand. Collections and truth values have kinds of their own there, and some data
cannot be operands. -/
def operand? : Datum → Option Tree
  | expr e => some (.ofExpr e)
  | mixed m => some m.tree
  | int _ => some .atom
  | tuple _ => some (.foreign "Tuple")
  | set _ => some (.foreign "FiniteSet")
  | record _ => some (.foreign "Dict")
  | truth b => some (.foreign (kind (verdict b)))
  | nothing | text _ | bytes | dots | list _ | callable .sqrt | slice => none
  | d => some (.foreign d.kind)

/-- Whether a datum counts as true; an open comparison does not say. -/
def truthy : Datum → Meaning Bool
  | expr (.num n) => .ok (!n.isZero)
  | nothing => .ok false
  | truth b | verdict b => .ok b
  | int n => .ok (n != 0)
  | text s => .ok (!s.isEmpty)
  | tuple xs | list xs | set xs => .ok (!xs.isEmpty)
  | record es => .ok (!es.isEmpty)
  | relation _ => senseless
  | _ => .ok true

mutual

def same : Datum → Datum → Bool
  | expr a, expr b => a.same b
  | expr (.num n), int k | int k, expr (.num n) => n == .ofInt k
  | expr (.num n), truth b | truth b, expr (.num n) => n == .ofInt (if b then 1 else 0)
  | nothing, nothing | bytes, bytes | dots, dots => true
  | truth a, truth b | verdict a, verdict b | truth a, verdict b | verdict a, truth b => a == b
  | int a, int b => a == b
  | int a, truth b | truth b, int a => a == (if b then 1 else 0)
  | text a, text b => a == b
  | tuple xs, tuple ys | list xs, list ys | set xs, set ys => sameAll xs ys
  | callable f, callable g => f == g
  | relation a, relation b => a == b
  | logic a (some x), logic b (some y) => a == b && x.same y
  | _, _ => false

def sameAll : List Datum → List Datum → Bool
  | [], [] => true
  | x :: xs, y :: ys => same x y && sameAll xs ys
  | _, _ => false

end

/-- Equal data can be found in a set; lists, sets and records cannot be its members. -/
def isHashable : Datum → Bool
  | list _ | set _ | record _ => false
  | _ => true

/-- The members of a collection. -/
def members? : Datum → Option (List Datum)
  | tuple xs | list xs | set xs => some xs
  | record es => some (es.map (·.1))
  | text s => some (s.toList.map fun c => text (String.singleton c))
  | _ => none

def int? : Datum → Option Int
  | int n => some n
  | truth b => some (if b then 1 else 0)
  | expr (.num n) => n.toInt?
  | _ => none

/-- A truth value or small integer beside an exact integer counts as an integer. -/
def beside (a : Datum) : Option Expr :=
  match a with
  | truth b => some (Expr.ofInt (if b then 1 else 0))
  | int n => some (Expr.ofInt n)
  | _ => none

end Datum

end Simultaneous.Formula
