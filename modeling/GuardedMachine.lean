import GuardedMachine.Binary64.Basic
import GuardedMachine.Binary64.Decimal
import GuardedMachine.Binary64.Shortest
import GuardedMachine.Decimal.Arithmetic
import GuardedMachine.Decimal.Basic
import GuardedMachine.Decimal.Text
import GuardedMachine.Expr.Basic
import GuardedMachine.Expr.EvalError
import GuardedMachine.Expr.Evaluation
import GuardedMachine.Expr.Operator
import GuardedMachine.Fields.Basic
import GuardedMachine.Fields.Json
import GuardedMachine.Fields.Path
import GuardedMachine.Fields.Record
import GuardedMachine.Json.Basic
import GuardedMachine.Json.Reader
import GuardedMachine.Machine.BuildError
import GuardedMachine.Machine.Dispatch
import GuardedMachine.Machine.Draft
import GuardedMachine.Machine.Guard
import GuardedMachine.Machine.Listener
import GuardedMachine.Machine.Transition
import GuardedMachine.Proofs.Decimal.Digits
import GuardedMachine.Proofs.Decimal.Division
import GuardedMachine.Proofs.Decimal.Exact
import GuardedMachine.Proofs.Decimal.Int128
import GuardedMachine.Proofs.Decimal.OutOfRange
import GuardedMachine.Proofs.Decimal.Representable
import GuardedMachine.Proofs.Decimal.SameNumber
import GuardedMachine.Proofs.Decimal.TrailingZeros
import GuardedMachine.Proofs.Dispatch.Attempts
import GuardedMachine.Proofs.Dispatch.Bindings
import GuardedMachine.Proofs.Dispatch.Negation
import GuardedMachine.Proofs.Dispatch.Outcome
import GuardedMachine.Proofs.Dispatch.Panic
import GuardedMachine.Proofs.Dispatch.Phases
import GuardedMachine.Proofs.Dispatch.Protocol
import GuardedMachine.Proofs.Dispatch.Resolution
import GuardedMachine.Proofs.Dispatch.Runs
import GuardedMachine.Proofs.Dispatch.StaticOverlap
import GuardedMachine.Proofs.Dispatch.Table
import GuardedMachine.Proofs.Expr.Arithmetic
import GuardedMachine.Proofs.Expr.Canonical
import GuardedMachine.Proofs.Expr.Exact
import GuardedMachine.Proofs.Expr.Occurrences
import GuardedMachine.Proofs.Expr.OutOfRange
import GuardedMachine.Proofs.Expr.Paths
import GuardedMachine.Proofs.Expr.Scale
import GuardedMachine.Proofs.Fields.Absence
import GuardedMachine.Proofs.Fields.Hops
import GuardedMachine.Proofs.Fields.Interchangeable
import GuardedMachine.Proofs.Machine.Drafts
import GuardedMachine.Proofs.Machine.Registrations
import GuardedMachine.Proofs.State.Documents
import GuardedMachine.Proofs.State.Opened
import GuardedMachine.Proofs.State.Overlap
import GuardedMachine.Proofs.Statement.Absence
import GuardedMachine.Proofs.Statement.Boundaries
import GuardedMachine.Proofs.Statement.FaithfulErrors
import GuardedMachine.Proofs.Statement.FirstError
import GuardedMachine.Proofs.Statement.Grammar
import GuardedMachine.Proofs.Statement.Lexemes
import GuardedMachine.Proofs.Statement.Negation
import GuardedMachine.Proofs.Statement.Parsing
import GuardedMachine.Proofs.Statement.Printing
import GuardedMachine.Proofs.Statement.Reformatting
import GuardedMachine.Proofs.Statement.Reprinting
import GuardedMachine.Proofs.Statement.Runs
import GuardedMachine.Proofs.Statement.Scanning
import GuardedMachine.Proofs.Statement.Slices
import GuardedMachine.Proofs.Statement.UniqueReading
import GuardedMachine.Proofs.Value.Documents
import GuardedMachine.Ratio
import GuardedMachine.State.Codec
import GuardedMachine.State.Composite
import GuardedMachine.State.Descriptor
import GuardedMachine.State.Label
import GuardedMachine.Statement.Basic
import GuardedMachine.Statement.Lexer
import GuardedMachine.Statement.Parser
import GuardedMachine.Statement.SyntaxError
import GuardedMachine.Statement.Token
import GuardedMachine.Text.Blank
import GuardedMachine.Text.Described
import GuardedMachine.Text.Invisible
import GuardedMachine.Text.Quoted
import GuardedMachine.Value.Basic
import GuardedMachine.Value.Codec
