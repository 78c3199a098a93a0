/-
# From tokens to expressions

A statement is an expression followed by a semicolon.  The operators bind, from the loosest
to the tightest, on these levels:

* `disjunction`: `||`;
* `conjunction`: `&&`;
* `negation`: `!` in front of its operand;
* `comparison`: `==`, `<>`, `<`, `<=`, `>` and `>=`;
* `sum`: `+` and `-`;
* `product`: `*` and `/`;
* `sign`: `-` in front of its operand;
* `operand`: literals, paths and expressions in parentheses.

Binary operators group to the left.  A unary operator may stand wherever its level is allowed,
so `!` may follow `&&` but not `==`.

The tokens are read one by one with a stack of what is still open: parentheses, unary
operators without their operand, and binary operators without their right operand.  After an
operand, a token first closes everything open that binds tighter than it does.  The height of
each expression is checked when it is put together, and the number of open parentheses and
unary operators when one is opened.  Both have the same limit, which is a parameter of the
reader; for statements it is `maxDepth`.
-/
import GuardedMachine.Statement.SyntaxError

namespace GuardedMachine

/-- How tight an expression binds, from the loosest level to the tightest. -/
inductive Level
  | disjunction
  | conjunction
  | negation
  | comparison
  | sum
  | product
  | sign
  | operand
deriving DecidableEq, Repr

namespace Level

/-- The number of looser levels. -/
def rank : Level → Nat
  | .disjunction => 0
  | .conjunction => 1
  | .negation => 2
  | .comparison => 3
  | .sum => 4
  | .product => 5
  | .sign => 6
  | .operand => 7

/-- The next level. -/
def tighter : Level → Level
  | .disjunction => .conjunction
  | .conjunction => .negation
  | .negation => .comparison
  | .comparison => .sum
  | .sum => .product
  | .product => .sign
  | .sign => .operand
  | .operand => .operand

/-- A level is at most another one if it binds no tighter. -/
instance : LE Level := ⟨fun a b => a.rank ≤ b.rank⟩

instance (a b : Level) : Decidable (a ≤ b) := inferInstanceAs (Decidable (a.rank ≤ b.rank))

theorem le_def {a b : Level} : a ≤ b ↔ a.rank ≤ b.rank := Iff.rfl

end Level

/-- The level of the expressions that a binary operator makes. -/
def BinaryOp.level : BinaryOp → Level
  | .logic .or => .disjunction
  | .logic .and => .conjunction
  | .equality _ => .comparison
  | .order _ => .comparison
  | .arith .add => .sum
  | .arith .sub => .sum
  | .arith .mul => .product
  | .arith .div => .product

/-- The level of the expressions that a unary operator makes. -/
def UnaryOp.level : UnaryOp → Level
  | .not => .negation
  | .neg => .sign

/-- The binary operator that a token is. -/
def Token.binary? : Token → Option BinaryOp
  | .symbol s => s.binary?
  | _ => none

namespace Parsing

/-- Something open: it waits for what comes next. -/
inductive Frame
  /-- A parenthesis without its counterpart. -/
  | paren
  /-- A unary operator, at a byte offset, without its operand. -/
  | unary (op : UnaryOp) (offset : Nat)
  /-- A binary operator, at a byte offset, without its right operand. -/
  | binary (left : Expr) (op : BinaryOp) (offset : Nat)
deriving DecidableEq, Repr

/-- The loosest level of an operand after what is open, innermost first. -/
def expectedLevel : List Frame → Level
  | [] => .disjunction
  | .paren :: _ => .disjunction
  | .unary op _ :: _ => op.level
  | .binary _ op _ :: _ => op.level.tighter

/-- The number of open parentheses and unary operators. -/
def nesting : List Frame → Nat
  | [] => 0
  | .paren :: rest => nesting rest + 1
  | .unary _ _ :: rest => nesting rest + 1
  | .binary _ _ _ :: rest => nesting rest

/-- An expression, if it is not too high; the error is at the given offset. -/
def checkHeight (limit offset : Nat) (e : Expr) : Except Fault Expr :=
  if e.height ≤ limit then .ok e else .error ⟨offset, .tooDeep⟩

/-- Close the open operators of the given level and of all tighter ones around an operand, up
to the innermost parenthesis: what stays open, and the operand made. -/
def close (limit : Nat) (level : Level) :
    List Frame → Expr → Except Fault (List Frame × Expr)
  | .unary op offset :: rest, e =>
    if level ≤ op.level then do
      let e ← checkHeight limit offset (.unary op e)
      close limit level rest e
    else
      .ok (.unary op offset :: rest, e)
  | .binary left op offset :: rest, e =>
    if level ≤ op.level then do
      let e ← checkHeight limit offset (.binary op left e)
      close limit level rest e
    else
      .ok (.binary left op offset :: rest, e)
  | frames, e => .ok (frames, e)

/-- How far a statement has been read. -/
inductive State
  /-- An operand comes next. -/
  | wantsOperand (frames : List Frame)
  /-- An operand has been read. -/
  | hasOperand (frames : List Frame) (e : Expr)
  /-- The semicolon has been read. -/
  | complete (e : Expr)
deriving DecidableEq, Repr

/-- Open one more parenthesis or unary operator, if not too many are open. -/
def openFrame (limit : Nat) (frame : Frame) (offset : Nat) (frames : List Frame) :
    Except Fault State :=
  if nesting frames < limit then .ok (.wantsOperand (frame :: frames))
  else .error ⟨offset, .tooDeep⟩

/-- Read a token where an operand comes next. -/
def readOperand (limit : Nat) (frames : List Frame) (t : PlacedToken) : Except Fault State :=
  let unexpected : Except Fault State :=
    .error ⟨t.offset, .unexpectedToken .operand t.token⟩
  match t.token with
  | .literal v => .ok (.hasOperand frames (.literal v))
  | .path p => .ok (.hasOperand frames (.path p))
  | .symbol .openParen => openFrame limit .paren t.offset frames
  | .symbol s =>
    match s.unary? with
    | some op =>
      if expectedLevel frames ≤ op.level then
        openFrame limit (.unary op t.offset) t.offset frames
      else
        unexpected
    | none => unexpected

/-- Read a token after an operand. -/
def readOperator (limit : Nat) (frames : List Frame) (e : Expr) (t : PlacedToken) :
    Except Fault State :=
  match t.token.binary? with
  | some op => do
    let (frames, e) ← close limit op.level frames e
    .ok (.wantsOperand (.binary e op t.offset :: frames))
  | none => do
    let (frames, e) ← close limit .disjunction frames e
    match frames with
    | [] =>
      if t.token = .symbol .semicolon then .ok (.complete e)
      else .error ⟨t.offset, .unexpectedToken .terminatorOrOperator t.token⟩
    | _ :: rest =>
      if t.token = .symbol .closeParen then .ok (.hasOperand rest e)
      else .error ⟨t.offset, .unexpectedToken .closeParen t.token⟩

/-- Read one token. -/
def State.read (limit : Nat) (state : State) (t : PlacedToken) : Except Fault State :=
  match state with
  | .wantsOperand frames => readOperand limit frames t
  | .hasOperand frames e => readOperator limit frames e t
  | .complete _ => .error ⟨t.offset, .trailingInput⟩

/-- The expression of a statement that ends here, at the given byte offset. -/
def State.finish (limit : Nat) (state : State) (offset : Nat) : Except Fault Expr :=
  match state with
  | .wantsOperand _ => .error ⟨offset, .unexpectedEnd .operand⟩
  | .hasOperand frames e => do
    let (frames, _) ← close limit .disjunction frames e
    match frames with
    | [] => .error ⟨offset, .missingTerminator⟩
    | _ :: _ => .error ⟨offset, .unexpectedEnd .closeParen⟩
  | .complete e => .ok e

/-- Read tokens one after the other. -/
def State.readAll (limit : Nat) (state : State) (tokens : List PlacedToken) :
    Except Fault State :=
  tokens.foldlM (State.read limit) state

end Parsing

/-- The expression of the statement that consists of the given tokens, in a text of the given
length in bytes. -/
def Expr.ofTokens (length : Nat) (tokens : List PlacedToken) : Except Fault Expr := do
  let state ← (Parsing.State.wantsOperand []).readAll maxDepth tokens
  state.finish maxDepth length

end GuardedMachine
