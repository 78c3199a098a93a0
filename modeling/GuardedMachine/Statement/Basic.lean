/-
# Statements

A statement is guard text together with the expression it was compiled to.  All of the text
is split into tokens before the first one is looked at, so an error in a token comes before
any error in their order.
-/
import GuardedMachine.Expr.Evaluation
import GuardedMachine.Statement.Lexer
import GuardedMachine.Statement.Parser

namespace GuardedMachine

/-- The expression of a statement given as characters. -/
def Expr.ofChars (cs : List Char) : Except Fault Expr := do
  let tokens ← tokenize 0 cs
  Expr.ofTokens (byteLength cs) tokens

/-- The expression of a statement. -/
def Expr.parse (text : String) : Except CompileError Expr :=
  (Expr.ofChars text.toList).mapError fun fault => ⟨text, fault⟩

/-- Compiled guard text. -/
structure Statement where
  /-- The text. -/
  text : String
  /-- The expression it stands for. -/
  expr : Expr
deriving DecidableEq, Repr

namespace Statement

/-- Compile guard text. -/
def compile (text : String) : Except CompileError Statement :=
  (Expr.parse text).map fun expr => ⟨text, expr⟩

/-- Whether two statements have the same text and the same expression. -/
def same (s t : Statement) : Bool := s.text == t.text && s.expr.same t.expr

variable {σ κ : Type} [HasFields σ] [HasFields κ]

/-- The answer of a statement as a guard, with a division that may round: its value must be a
boolean. -/
def holdsBy (divide : Decimal → Decimal → Option Decimal) (s : Statement) (b : Bindings σ κ) :
    Evaluation Bool := do
  match ← s.expr.evaluateBy divide b with
  | .bool answer => pure answer
  | v => .fail (.notBoolean v.kind)

/-- The answer of a statement as a guard. -/
def holds (s : Statement) (b : Bindings σ κ) : Evaluation Bool :=
  s.holdsBy Decimal.roundedQuotient? b

end Statement

end GuardedMachine
