/-
# Reformatting a statement

White space put in between the tokens of a text changes nothing but the places of what is behind
it.  The tokens stay or move (`Boundary.tokenize_insert`), and the parser only copies their places
and never looks at them: what it makes of tokens that have moved is what it made of them before,
at the places where they are now (`ofTokens_move`).
-/
import GuardedMachine.Proofs.Statement.Boundaries
import GuardedMachine.Proofs.Statement.Slices

namespace GuardedMachine

open Lexeme

/-! ## Moving what has a place -/

section Move

variable (f : ℕ → ℕ)

/-- A fault at another place. -/
def Fault.move (fault : Fault) : Fault := ⟨f fault.offset, fault.error⟩

/-- A result with its fault at another place. -/
def moveResult {α β : Type} (g : α → β) : Except Fault α → Except Fault β
  | .ok a => .ok (g a)
  | .error fault => .error (fault.move f)

lemma moveResult_bind {α α' β β' : Type} {g : α → α'} (g' : β → β') {F : α → Except Fault β}
    {F' : α' → Except Fault β'} (hF : ∀ a, F' (g a) = moveResult f g' (F a)) (r : Except Fault α) :
    (moveResult f g r).bind F' = moveResult f g' (r.bind F) := by
  cases r with
  | error fault => rfl
  | ok a => exact hF a

end Move

/-! ## The parser copies places -/

namespace Parsing

variable (f : ℕ → ℕ) {limit : ℕ}

/-- A frame whose operator is at another place. -/
def Frame.move : Frame → Frame
  | .paren => .paren
  | .unary op offset => .unary op (f offset)
  | .binary left op offset => .binary left op (f offset)

/-- A state with its operators at other places. -/
def State.move : State → State
  | .wantsOperand fs => .wantsOperand (fs.map (Frame.move f))
  | .hasOperand fs e => .hasOperand (fs.map (Frame.move f)) e
  | .complete e => .complete e

lemma nesting_map_move (fs : List Frame) : nesting (fs.map (Frame.move f)) = nesting fs := by
  induction fs with
  | nil => rfl
  | cons frame rest ih => cases frame <;> simp only [List.map_cons, Frame.move, nesting, ih]

lemma expectedLevel_map_move (fs : List Frame) :
    expectedLevel (fs.map (Frame.move f)) = expectedLevel fs := by
  rcases fs with _ | ⟨_ | _ | _, rest⟩ <;> rfl

lemma checkHeight_move (offset : ℕ) (e : Expr) :
    checkHeight limit (f offset) e = moveResult f id (checkHeight limit offset e) := by
  rw [checkHeight, checkHeight]
  split <;> rfl

/-- What stays open, and the operand made, with the operators at other places. -/
def moveClosed (closed : List Frame × Expr) : List Frame × Expr :=
  (closed.1.map (Frame.move f), closed.2)

lemma close_move (level : Level) (fs : List Frame) (e : Expr) :
    close limit level (fs.map (Frame.move f)) e
      = moveResult f (moveClosed f) (close limit level fs e) := by
  induction fs generalizing e with
  | nil => rfl
  | cons frame rest ih =>
    -- a frame that is closed makes the same expression, and otherwise nothing happens
    cases frame with
    | paren => rfl
    | unary op offset =>
      by_cases hle : level ≤ op.level
      · rw [List.map_cons, Frame.move, close_unary hle, close_unary hle, checkHeight_move]
        exact moveResult_bind f _ ih _
      · rw [List.map_cons, Frame.move, close, close, if_neg hle, if_neg hle]
        rfl
    | binary left op offset =>
      by_cases hle : level ≤ op.level
      · rw [List.map_cons, Frame.move, close_binary hle, close_binary hle, checkHeight_move]
        exact moveResult_bind f _ ih _
      · rw [List.map_cons, Frame.move, close, close, if_neg hle, if_neg hle]
        rfl

lemma openFrame_move (frame : Frame) (offset : ℕ) (fs : List Frame) :
    openFrame limit (frame.move f) (f offset) (fs.map (Frame.move f))
      = moveResult f (State.move f) (openFrame limit frame offset fs) := by
  rw [openFrame, openFrame, nesting_map_move]
  split <;> rfl

lemma readOperand_move (fs : List Frame) (t : PlacedToken) :
    readOperand limit (fs.map (Frame.move f)) (t.move f)
      = moveResult f (State.move f) (readOperand limit fs t) := by
  obtain ⟨token, offset⟩ := t
  simp only [readOperand, PlacedToken.move, expectedLevel_map_move]
  split
  · rfl
  · rfl
  · exact openFrame_move f .paren offset fs
  · split
    · split
      · exact openFrame_move f (.unary _ offset) offset fs
      · rfl
    · rfl

lemma readOperator_move (fs : List Frame) (e : Expr) (t : PlacedToken) :
    readOperator limit (fs.map (Frame.move f)) e (t.move f)
      = moveResult f (State.move f) (readOperator limit fs e t) := by
  obtain ⟨token, offset⟩ := t
  have move_ite (s : Symbol) (state : State) (error : SyntaxError) :
      (if token = .symbol s then .ok (state.move f) else .error ⟨f offset, error⟩)
        = moveResult f (State.move f)
            (if token = .symbol s then .ok state else .error ⟨offset, error⟩) := by
    split <;> rfl
  simp only [readOperator, PlacedToken.move, close_move]
  split
  · refine moveResult_bind f (State.move f) (fun closed => ?_) _
    rfl
  · refine moveResult_bind f (State.move f) (fun closed => ?_) _
    obtain ⟨_ | ⟨g, gs⟩, e⟩ := closed
    · simp only [moveClosed, List.map_nil]
      exact move_ite .semicolon (.complete e) _
    · simp only [moveClosed, List.map_cons]
      exact move_ite .closeParen (.hasOperand gs e) _

lemma read_move (state : State) (t : PlacedToken) :
    (state.move f).read limit (t.move f)
      = moveResult f (State.move f) (state.read limit t) := by
  cases state with
  | wantsOperand fs => exact readOperand_move f fs t
  | hasOperand fs e => exact readOperator_move f fs e t
  | complete e => rfl

lemma readAll_move (state : State) (ts : List PlacedToken) :
    (state.move f).readAll limit (ts.map (PlacedToken.move f))
      = moveResult f (State.move f) (state.readAll limit ts) := by
  induction ts generalizing state with
  | nil => rfl
  | cons t rest ih =>
    rw [List.map_cons, readAll_cons, readAll_cons, read_move]
    exact moveResult_bind f _ ih _

lemma finish_move (state : State) (offset : ℕ) :
    (state.move f).finish limit (f offset) = moveResult f id (state.finish limit offset) := by
  cases state with
  | wantsOperand fs => rfl
  | hasOperand fs e =>
    simp only [State.move, State.finish, close_move]
    refine moveResult_bind f id (fun closed => ?_) _
    obtain ⟨_ | ⟨g, gs⟩, e⟩ := closed
    · rfl
    · rfl
  | complete e => rfl

end Parsing

open Parsing

/-- Tokens at other places, in a text that ends at another place, make the same expression, or
the same error at another place. -/
lemma ofTokens_move (f : ℕ → ℕ) (length : ℕ) (tokens : List PlacedToken) :
    Expr.ofTokens (f length) (tokens.map (PlacedToken.move f))
      = moveResult f id (Expr.ofTokens length tokens) := by
  rw [ofTokens_eq_bind, ofTokens_eq_bind]
  have hread : (State.wantsOperand []).readAll maxDepth (tokens.map (PlacedToken.move f))
      = moveResult f (State.move f) ((State.wantsOperand []).readAll maxDepth tokens) :=
    readAll_move f (.wantsOperand []) tokens
  rw [hread]
  exact moveResult_bind f id (fun state => finish_move f state length) _

/-! ## Statements -/

/-- **Reformatting never changes a statement.**  A text that has tokens may be cut wherever a token
starts or ends, or anywhere in white space, and white space may be put in there.  What it then
compiles to is the same expression, or the same error, at its old place if that is in front of the
cut and otherwise as many bytes further on as have been put in.  The end of the text is never in
front of the cut. -/
theorem Expr.parse_insert_blanks (text : String) (tokens : List PlacedToken)
    (htokens : tokenize 0 text.toList = .ok tokens) :
    (∀ t ∈ tokens, ∃ before l after shape, text.toList = before ++ (l ++ after) ∧
      t.offset = byteLength before ∧ Shaped l shape ∧ Longest l after ∧ Denotes shape t.token ∧
        Boundary before (l ++ after) ∧ Boundary (before ++ l) after) ∧
    ∀ before w after : String, text = before ++ after → Boundary before.toList after.toList →
      (∀ c ∈ w.toList, Text.isBlank c = true) →
        Expr.parse (before ++ w ++ after) = (Expr.parse text).mapError fun err =>
          ⟨before ++ w ++ after,
            ⟨shiftFrom before.utf8ByteSize w.utf8ByteSize err.fault.offset, err.fault.error⟩⟩ := by
  constructor
  · intro t ht
    obtain ⟨before, l, after, shape, htext, hoffset, h⟩ :=
      (scans_of_tokenize htokens).boundary_of_mem ht
    rw [Nat.zero_add] at hoffset
    exact ⟨before, l, after, shape, htext, hoffset, h⟩
  · rintro before w after rfl hboundary hw
    let f := shiftFrom before.utf8ByteSize w.utf8ByteSize
    have hmoved : tokenize 0 (before ++ w ++ after).toList
        = .ok (tokens.map (PlacedToken.move f)) := by
      rw [String.toList_append] at htokens
      have h := hboundary.tokenize_insert hw htokens
      rw [Nat.zero_add, byteLength_toList, byteLength_toList] at h
      rw [String.toList_append, String.toList_append, List.append_assoc, h]
    have hlength : byteLength (before ++ w ++ after).toList
        = f (byteLength (before ++ after).toList) := by
      simp only [byteLength_toList, String.utf8ByteSize_append, f, shiftFrom]
      rw [if_pos (Nat.le_add_right _ _)]
      omega
    rw [parse_eq_of_tokenize hmoved, parse_eq_of_tokenize htokens, hlength, ofTokens_move]
    rcases Expr.ofTokens (byteLength (before ++ after).toList) tokens with fault | e <;> rfl

/-- A line break and a space of three bytes in front of an operator that cannot stand there. -/
theorem Expr.parse_insert_blanks_wide :
    let tokens : List PlacedToken :=
      [⟨.literal (.decimal ⟨false, 1, 0, by decide, by decide⟩), 0⟩, ⟨.symbol .less, 2⟩,
        ⟨.symbol .bang, 3⟩, ⟨.literal (.bool true), 4⟩, ⟨.symbol .semicolon, 8⟩]
    tokenize 0 "1 <!true;".toList = .ok tokens ∧
      Expr.parse "1 <\n　!true;"
        = .error ⟨"1 <\n　!true;", ⟨7, .unexpectedToken .operand (.symbol .bang)⟩⟩ := by
  intro tokens
  have htokens : tokenize 0 "1 <!true;".toList = .ok tokens := by decide +kernel
  have herror : Expr.parse "1 <!true;"
      = .error ⟨"1 <!true;", ⟨3, .unexpectedToken .operand (.symbol .bang)⟩⟩ := by decide +kernel
  -- one comes there by reading the number, and the space and the symbol
  have hboundary : Boundary ['1', ' ', '<'] "!true;".toList := by
    let one : Decimal := ⟨false, 1, 0, by decide, by decide⟩
    have hnumber : Shaped ['1'] (.number ['1'] []) :=
      @Shaped.number ['1'] [] (by simp) (by simp) (by simp)
    have hone : Denotes (.number ['1'] []) (.literal (.decimal one)) := .number rfl rfl rfl
    have hless : Boundary ([' '] ++ (Symbol.less.spelling ++ [])) "!true;".toList := by
      have hends : Ends (.symbol .less) ([] ++ "!true;".toList) :=
        ends_symbol_cons (by decide) .less _
      exact .lexeme (by simp; decide) (.symbol .less) hends (.symbol .less) (.blanks (by simp))
    have hstops : Ends (.number ['1'] []) ([' ', '<'] ++ "!true;".toList) :=
      stops_cons.2 (by decide)
    exact @Boundary.lexeme [] ['1'] [' ', '<'] _ _ _ (by simp) hnumber hstops hone hless
  have hblanks : "\n　".toList.all Text.isBlank = true := by decide +kernel
  have h := (parse_insert_blanks "1 <!true;" tokens htokens).2 "1 <" "\n　" "!true;" (by decide)
    hboundary (List.all_eq_true.1 hblanks)
  rw [herror] at h
  exact ⟨htokens, h⟩

end GuardedMachine
