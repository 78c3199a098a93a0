/-
# Guard expressions

An expression is a literal, a path, or an operator on expressions.  Two expressions are the
same when they agree up to the way their decimals are written.
-/
import GuardedMachine.Expr.Operator
import GuardedMachine.Fields.Path
import GuardedMachine.Value.Basic

namespace GuardedMachine

/-- An expression of the guard language. -/
inductive Expr
  | literal (v : Value)
  | path (p : Path)
  | unary (op : UnaryOp) (operand : Expr)
  | binary (op : BinaryOp) (left right : Expr)
deriving DecidableEq, Repr

namespace Expr

/-- The number of nodes on the longest way from the root to a leaf. -/
def height : Expr → Nat
  | .literal _ => 1
  | .path _ => 1
  | .unary _ operand => operand.height + 1
  | .binary _ left right => max left.height right.height + 1

theorem height_pos (e : Expr) : 0 < e.height := by
  cases e <;> simp [height]

/-- Whether two expressions agree up to the scale and the sign of zero of their literals. -/
def same : Expr → Expr → Bool
  | .literal v, .literal w => v.same w
  | .path p, .path q => p == q
  | .unary op e, .unary op' e' => op == op' && e.same e'
  | .binary op l r, .binary op' l' r' => op == op' && l.same l' && r.same r'
  | _, _ => false

theorem same_refl (e : Expr) : e.same e = true := by
  induction e with
  | literal v => simp [same, Value.same_refl]
  | path p => simp [same]
  | unary op operand ih => simp [same, ih]
  | binary op left right ihl ihr => simp [same, ihl, ihr]

/-- The text of an expression: binary operators are put in parentheses with their operands,
unary ones are not.  In its strings the given characters are taken to be invisible. -/
def toTextBy (invisible : Char → Bool) : Expr → String
  | .literal v => v.toTextBy invisible
  | .path p => p.toText
  | .unary op operand => op.symbol ++ operand.toTextBy invisible
  | .binary op left right =>
    "(" ++ left.toTextBy invisible ++ " " ++ op.symbol ++ " " ++ right.toTextBy invisible ++ ")"

/-- The text of an expression. -/
def toText (e : Expr) : String := e.toTextBy Text.isInvisible

end Expr

end GuardedMachine
