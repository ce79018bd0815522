import Simultaneous.Text.Quoted
import Simultaneous.Text.Brackets
import Simultaneous.Text.Splitting
import Simultaneous.Decimal.Significant
import Simultaneous.Decimal.Places
import Simultaneous.Decimal.Reading
import Simultaneous.Literal.Reader
import Simultaneous.Literal.Writer
import Simultaneous.Settings
import Simultaneous.Random.Twister
import Simultaneous.Formula.Plain
import Simultaneous.Algebra.Expr
import Simultaneous.Algebra.Simplify.Stack
import Simultaneous.Algebra.Printer
import Simultaneous.Program.Compile
import Simultaneous.Formula.Meaning
import Simultaneous.Expression
import Simultaneous.Literal.Format
import Simultaneous.Report
import Simultaneous.EquationSystem
import Simultaneous.Reduction
import Simultaneous.Matrix.Inverse
import Simultaneous.Newton.Solver
import Simultaneous.Newton.InMemory
import Simultaneous.Search.Basic
import Simultaneous.Log.Search
import Simultaneous.Results
import Simultaneous.Matrix.Given
import Simultaneous.Matrix.Text
import Simultaneous.Matrix.Calculator
import Simultaneous.Matrix.Store
import Simultaneous.Matrix.Heap
import Simultaneous.Solve
import Simultaneous.CommandLine.Printing
import Simultaneous.CommandLine.Run
import Simultaneous.Log.Record
import Simultaneous.Main
import Simultaneous.Proofs.Reduction.Scan
import Simultaneous.Proofs.Reduction.Removal
import Simultaneous.Proofs.Reduction.Conservation
import Simultaneous.Proofs.Attempt
import Simultaneous.Proofs.Double.Order
import Simultaneous.Proofs.Matrix.Shape
import Simultaneous.Proofs.Matrix.Elimination
import Simultaneous.Proofs.Newton.Trajectory
import Simultaneous.Proofs.Evaluation
import Simultaneous.Proofs.EquationSystem
import Simultaneous.Proofs.Limits
import Simultaneous.Proofs.Newton.Sizes
import Simultaneous.Proofs.Newton.Outcome
import Simultaneous.Proofs.Newton.Convergence
import Simultaneous.Proofs.Search.Soundness
import Simultaneous.Proofs.Validation
import Simultaneous.Proofs.Search.Retries
import Simultaneous.Proofs.Matrix.Entries
import Simultaneous.Proofs.Matrix.Exact
import Simultaneous.Proofs.Matrix.Inversion
import Simultaneous.Proofs.Matrix.Nonsingular
import Simultaneous.Proofs.Matrix.Vector
import Simultaneous.Proofs.Newton.Affine
import Simultaneous.Proofs.Newton.AffineRuns
import Simultaneous.Proofs.Decimal.Nearest
import Simultaneous.Proofs.Formula.Mishaps
import Simultaneous.Proofs.Formula.Reading
import Simultaneous.Proofs.Escapes
import Simultaneous.Proofs.Text.Brackets
import Simultaneous.Proofs.Text.Balance
import Simultaneous.Proofs.Text.Respelling
import Simultaneous.Proofs.Text.Trimming
import Simultaneous.Proofs.Text.Classes
import Simultaneous.Proofs.Text.Rewriting
import Simultaneous.Proofs.Text.Carrying
import Simultaneous.Proofs.Text.Splitting
import Simultaneous.Proofs.Text.Lowering
import Simultaneous.Proofs.Formula.Passes
import Simultaneous.Proofs.Formula.Acceptance
import Simultaneous.Proofs.Formula.Denylist
import Simultaneous.Proofs.Formula.Rules
import Simultaneous.Proofs.Formula.Keeping
import Simultaneous.Proofs.Formula.Remainders
import Simultaneous.Proofs.Formula.NormalForm
import Simultaneous.Proofs.Formula.Joints
import Simultaneous.Proofs.Formula.NameBoundaries
import Simultaneous.Proofs.Formula.NumberBoundaries
import Simultaneous.Proofs.Formula.Boundaries
import Simultaneous.Proofs.Matrix.Data
import Simultaneous.Proofs.Matrix.Calculator
import Simultaneous.Proofs.Double.Classes
import Simultaneous.Proofs.Decimal.Interval
import Simultaneous.Proofs.Decimal.Shortest
import Simultaneous.Proofs.Literal.Numeral
import Simultaneous.Proofs.Literal.Brief
import Simultaneous.Proofs.Literal.Reading
import Simultaneous.Proofs.Matrix.RoundTrip
import Simultaneous.Proofs.Distinct
import Simultaneous.Proofs.Registry
import Simultaneous.Proofs.Search.Origins
import Simultaneous.Expression.Session
import Simultaneous.Proofs.Formula.Preorder
import Simultaneous.Proofs.Formula.Admission
import Simultaneous.Proofs.Formula.Memory
import Simultaneous.Proofs.Session
import Simultaneous.Proofs.Newton.Breakage
import Simultaneous.Proofs.Newton.Calls
import Simultaneous.Proofs.Newton.Limit
import Simultaneous.Proofs.Matrix.Directory
import Simultaneous.Proofs.Matrix.Store
import Simultaneous.Proofs.Matrix.Heap
import Simultaneous.Proofs.Matrix.HalfRounded
import Simultaneous.Proofs.Newton.InMemory
import Simultaneous.Proofs.Newton.Jacobian
import Simultaneous.Proofs.Reduction.Preference
import Simultaneous.Proofs.Attempt.Agreement
import Simultaneous.Proofs.Matrix.Arrangement
import Simultaneous.Proofs.Newton.Lockstep
import Simultaneous.Proofs.Newton.Sides
import Simultaneous.Proofs.Newton.Writing
import Simultaneous.Proofs.Algebra.Sorting
import Simultaneous.Proofs.Algebra.Leaves
import Simultaneous.Proofs.Program.Denotation
import Simultaneous.Proofs.Program.Compile
import Simultaneous.Proofs.Expression.Unknowns
import Simultaneous.Proofs.Expression.Names
import Simultaneous.Proofs.Expression.Words
import Simultaneous.Proofs.Formula.Lexemes
import Simultaneous.Proofs.Expression.Appearance
import Simultaneous.Proofs.Formula.Preorder
