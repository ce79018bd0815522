import Simultaneous.Failure

/-!
What a caller sees of a failure of the catalogue: its kind, its code, its message, and whether
another choice of equations might avoid it.
-/

namespace Simultaneous

/-- Failures concern input, the computation, or matrices in particular. -/
inductive ReportKind
  | input
  | computation
  | matrix
  deriving DecidableEq, Repr

structure Report where
  kind : ReportKind
  code : String
  message : String
  transient : Bool := false
  deriving DecidableEq, Repr

namespace Report

/-- The code of a report that names none. -/
def defaultCode : ReportKind → String
  | .input => "VALIDATION_ERROR"
  | _ => "SOLVER_ERROR"

/-- A report whose message comes from the catalogue. -/
def ofCode (kind : ReportKind) (code detail : String) (transient : Bool) : Report :=
  ⟨kind, code, Simultaneous.describe code detail, transient⟩

/-- A matrix report is one of a computation. -/
def isComputation (r : Report) : Bool := r.kind != .input

end Report

/-- The report of a failure, unless it is a breakage. -/
def Failure.report? : Failure → Option Report
  | .refused r => some ⟨.input, r.code, r.message, false⟩
  | .unsolved u => some ⟨.computation, u.code, describe u.code u.detail, false⟩
  | .matrix m transient => some ⟨.matrix, m.code, describe m.code m.detail, transient⟩
  | .broken _ => none

end Simultaneous
