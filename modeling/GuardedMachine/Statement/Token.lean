/-
# Tokens of guard text

A token is a literal, a path or a symbol.  A symbol is written in one way only, and the
symbols of two characters are listed before those of one, so that the first symbol of the
list that a text starts with is the longest one.
-/
import GuardedMachine.Expr.Basic

namespace GuardedMachine

/-- The operators and marks of the guard language. -/
inductive Symbol
  | equal
  | notEqual
  | atMost
  | less
  | atLeast
  | greater
  | and
  | or
  | bang
  | plus
  | minus
  | star
  | slash
  | openParen
  | closeParen
  | semicolon
deriving DecidableEq, Repr

namespace Symbol

/-- The characters of a symbol. -/
def spelling : Symbol → List Char
  | .equal => ['=', '=']
  | .notEqual => ['<', '>']
  | .atMost => ['<', '=']
  | .less => ['<']
  | .atLeast => ['>', '=']
  | .greater => ['>']
  | .and => ['&', '&']
  | .or => ['|', '|']
  | .bang => ['!']
  | .plus => ['+']
  | .minus => ['-']
  | .star => ['*']
  | .slash => ['/']
  | .openParen => ['(']
  | .closeParen => [')']
  | .semicolon => [';']

/-- All symbols, the longer ones first. -/
def all : List Symbol :=
  [.equal, .notEqual, .atMost, .atLeast, .and, .or, .less, .greater, .bang, .plus, .minus, .star,
    .slash, .openParen, .closeParen, .semicolon]

theorem mem_all (s : Symbol) : s ∈ all := by cases s <;> decide

theorem spelling_ne_nil (s : Symbol) : s.spelling ≠ [] := by cases s <;> decide

/-- The longest symbol that a text starts with. -/
def startOf? (cs : List Char) : Option Symbol :=
  all.find? fun s => s.spelling.isPrefixOf cs

/-- The binary operator that a symbol is. -/
def binary? : Symbol → Option BinaryOp
  | .equal => some (.equality .equal)
  | .notEqual => some (.equality .notEqual)
  | .less => some (.order .less)
  | .atMost => some (.order .atMost)
  | .greater => some (.order .greater)
  | .atLeast => some (.order .atLeast)
  | .and => some (.logic .and)
  | .or => some (.logic .or)
  | .plus => some (.arith .add)
  | .minus => some (.arith .sub)
  | .star => some (.arith .mul)
  | .slash => some (.arith .div)
  | .bang | .openParen | .closeParen | .semicolon => none

/-- The unary operator that a symbol is. -/
def unary? : Symbol → Option UnaryOp
  | .bang => some .not
  | .minus => some .neg
  | _ => none

end Symbol

/-- A token. -/
inductive Token
  | literal (v : Value)
  | path (p : Path)
  | symbol (s : Symbol)
deriving DecidableEq, Repr

/-- The text that errors show for a token, with the given characters taken to be invisible. -/
def Token.toTextBy (invisible : Char → Bool) : Token → String
  | .literal v => v.toTextBy invisible
  | .path p => p.toText
  | .symbol s => "'" ++ String.ofList s.spelling ++ "'"

/-- The text that errors show for a token. -/
def Token.toText (t : Token) : String := t.toTextBy Text.isInvisible

/-- A token and the byte offset at which it starts. -/
structure PlacedToken where
  /-- The token. -/
  token : Token
  /-- The number of bytes of UTF-8 in front of it. -/
  offset : Nat
deriving DecidableEq, Repr

/-- The number of bytes that characters take in UTF-8. -/
def byteLength : List Char → Nat
  | [] => 0
  | c :: cs => c.utf8Size + byteLength cs

theorem byteLength_append (cs ds : List Char) :
    byteLength (cs ++ ds) = byteLength cs + byteLength ds := by
  induction cs with
  | nil => simp [byteLength]
  | cons c cs ih => simp only [List.cons_append, byteLength, ih, Nat.add_assoc]

end GuardedMachine
