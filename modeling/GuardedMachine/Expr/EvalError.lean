/-
# Evaluation errors

The ways in which evaluating an expression or a guard fails, and the message of each.
-/
import GuardedMachine.Expr.Operator
import GuardedMachine.Fields.Path
import GuardedMachine.Value.Basic

namespace GuardedMachine

/-- Why an expression has no value, or a guard no answer. -/
inductive EvalError
  /-- An operand is not of the kind that its operator takes. -/
  | typeMismatch (operator : Operator) (expected found : Kind)
  /-- A result is out of the range of decimals. -/
  | overflow (op : ArithOp)
  /-- A result has more digits than a decimal holds. -/
  | inexact (op : ArithOp)
  /-- The divisor is zero. -/
  | divisionByZero
  /-- A path goes on from a scalar. -/
  | scalarTraversal (path : Path) (segment : String)
  /-- A path ends on an object. -/
  | objectValue (path : Path)
  /-- The value of a guard is not a boolean. -/
  | notBoolean (found : Kind)
deriving DecidableEq, Repr

/-- The message of an evaluation error. -/
def EvalError.message : EvalError → String
  | .typeMismatch operator expected found =>
    "operator '" ++ operator.symbol ++ "' expects " ++ expected.name ++ " operands, found "
      ++ found.name
  | .overflow op => "arithmetic overflow in '" ++ op.symbol ++ "'"
  | .inexact op => "result of '" ++ op.symbol ++ "' cannot be represented without rounding"
  | .divisionByZero => "division by zero"
  | .scalarTraversal path segment =>
    "cannot read '" ++ segment ++ "' of scalar value in path '" ++ path.toText ++ "'"
  | .objectValue path => "path '" ++ path.toText ++ "' resolves to an object, not a value"
  | .notBoolean found => "guard must evaluate to a boolean, found " ++ found.name

end GuardedMachine
