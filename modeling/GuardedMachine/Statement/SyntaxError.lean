/-
# Syntax errors

What can be wrong with guard text, where it is wrong, and the message of each error.  Offsets
count bytes of UTF-8 from the start of the text.
-/
import GuardedMachine.Statement.Token

namespace GuardedMachine

/-- The greatest height of an expression, and the greatest number of parentheses and unary
operators that may be open at once. -/
def maxDepth : Nat := 128

/-- What is wrong with a path. -/
inductive PathFault
  /-- A point is not followed by a name. -/
  | emptySegment
  /-- The root is not followed by a point. -/
  | missingPoint
deriving DecidableEq, Repr

/-- The description of a fault of a path. -/
def PathFault.message : PathFault → String
  | .emptySegment => "empty segment"
  | .missingPoint => "expected '.' after path root"

/-- What would have been right at a place. -/
inductive Expectation
  | operand
  | closeParen
  | terminatorOrOperator
deriving DecidableEq, Repr

/-- The description of an expectation. -/
def Expectation.message : Expectation → String
  | .operand => "an operand"
  | .closeParen => "')'"
  | .terminatorOrOperator => "';' or an operator"

/-- What is wrong with a text. -/
inductive SyntaxError
  /-- No token starts with this character, or it stands after a backslash in a string. -/
  | unexpectedChar (c : Char)
  /-- A string has no closing quote. -/
  | unterminatedString
  /-- A number has no digit after its point, or more digits than a decimal holds. -/
  | invalidNumber (literal : String)
  /-- A word is not one of the three literals. -/
  | unknownIdentifier (word : String)
  /-- A path is not complete. -/
  | malformedPath (fault : PathFault)
  /-- A token cannot stand where it does. -/
  | unexpectedToken (expected : Expectation) (found : Token)
  /-- The text ends inside of an expression. -/
  | unexpectedEnd (expected : Expectation)
  /-- The text ends after its expression. -/
  | missingTerminator
  /-- The text goes on after its terminator. -/
  | trailingInput
  /-- The expression is too high, or nested too deeply. -/
  | tooDeep
deriving DecidableEq, Repr

/-- The description of a syntax error. -/
def SyntaxError.message : SyntaxError → String
  | .unexpectedChar c => "unexpected character '" ++ String.singleton c ++ "'"
  | .unterminatedString => "unterminated string literal"
  | .invalidNumber literal => "invalid number literal '" ++ literal ++ "'"
  | .unknownIdentifier word => "unknown identifier '" ++ word ++ "'"
  | .malformedPath fault => "malformed path: " ++ fault.message
  | .unexpectedToken expected found =>
    "expected " ++ expected.message ++ ", found " ++ found.toText
  | .unexpectedEnd expected => "unexpected end of input, expected " ++ expected.message
  | .missingTerminator => "statement must be terminated by ';'"
  | .trailingInput => "unexpected input after ';'"
  | .tooDeep => "expression nests deeper than " ++ maxDepth.repr ++ " levels"

/-- A syntax error and its place. -/
structure Fault where
  /-- The byte offset of the error. -/
  offset : Nat
  /-- What is wrong there. -/
  error : SyntaxError
deriving DecidableEq, Repr

/-- The error of a text that does not compile; it carries the whole text. -/
structure CompileError where
  /-- The text. -/
  text : String
  /-- The first thing wrong with it, and where. -/
  fault : Fault
deriving DecidableEq, Repr

/-- The message of a compile error. -/
def CompileError.message (e : CompileError) : String :=
  "invalid guard expression " ++ Text.quote e.text ++ " at offset " ++ e.fault.offset.repr ++ ": "
    ++ e.fault.error.message

end GuardedMachine
