/-
# Operators of the guard language

The binary operators fall into four groups that are evaluated alike: arithmetic, ordering,
equality and the two logical connectives.  There are two unary operators.
-/

namespace GuardedMachine

/-- Arithmetic on decimals. -/
inductive ArithOp
  | add
  | sub
  | mul
  | div
deriving DecidableEq, Repr

/-- Ordering of decimals. -/
inductive OrderOp
  | less
  | atMost
  | greater
  | atLeast
deriving DecidableEq, Repr

/-- Equality of values of any kind. -/
inductive EqualityOp
  | equal
  | notEqual
deriving DecidableEq, Repr

/-- The connectives, which look at their right operand only if it decides. -/
inductive LogicOp
  | and
  | or
deriving DecidableEq, Repr

/-- The operators between two operands. -/
inductive BinaryOp
  | arith (op : ArithOp)
  | order (op : OrderOp)
  | equality (op : EqualityOp)
  | logic (op : LogicOp)
deriving DecidableEq, Repr

/-- The operators in front of one operand. -/
inductive UnaryOp
  | not
  | neg
deriving DecidableEq, Repr

/-- How an arithmetic operator is written. -/
def ArithOp.symbol : ArithOp → String
  | .add => "+"
  | .sub => "-"
  | .mul => "*"
  | .div => "/"

/-- How an ordering is written. -/
def OrderOp.symbol : OrderOp → String
  | .less => "<"
  | .atMost => "<="
  | .greater => ">"
  | .atLeast => ">="

/-- How an equality is written. -/
def EqualityOp.symbol : EqualityOp → String
  | .equal => "=="
  | .notEqual => "<>"

/-- How a connective is written. -/
def LogicOp.symbol : LogicOp → String
  | .and => "&&"
  | .or => "||"

/-- How a binary operator is written. -/
def BinaryOp.symbol : BinaryOp → String
  | .arith op => op.symbol
  | .order op => op.symbol
  | .equality op => op.symbol
  | .logic op => op.symbol

/-- How a unary operator is written. -/
def UnaryOp.symbol : UnaryOp → String
  | .not => "!"
  | .neg => "-"

/-- An operator of either form, as evaluation errors name it. -/
inductive Operator
  | unary (op : UnaryOp)
  | binary (op : BinaryOp)
deriving DecidableEq, Repr

/-- How an operator is written. -/
def Operator.symbol : Operator → String
  | .unary op => op.symbol
  | .binary op => op.symbol

end GuardedMachine
