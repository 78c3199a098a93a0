/-
# The parser accepts exactly the grammar

What a parser state stands for is the tokens read so far: those of the frames that are open
(`Spells`), followed by an expression of the level that the innermost frame expects.  Closing
frames moves tokens from the one part to the other (`Holds.close`), reading a token appends it
(`Reads.read`), and so a complete statement has been derived from all of its tokens.

The converse goes along a derivation.  After the tokens of an expression the state has an
operand; it need not be the expression yet, as frames may still be open inside of it, but every
token that may follow closes them, and then the two are the same (`Derives.readAll`).  As a
parser with a limit that is great enough reads every derivation of some tokens, all of these
give the same expression.
-/
import GuardedMachine.Proofs.Statement.Grammar
import GuardedMachine.Statement.Basic

namespace GuardedMachine

namespace Parsing

/-! ## Tokens of open frames -/

section Spells

variable (limit : Nat)

/-- The tokens of the frames that are open.  Each frame stands where an expression of its level
may stand, and a left operand is an expression of the level of its operator. -/
inductive Spells : List Frame → List Token → Prop
  | nil : Spells [] []
  | paren {fs : List Frame} {ts : List Token} : Spells fs ts →
    Spells (.paren :: fs) (ts ++ [.symbol .openParen])
  | unary {fs : List Frame} {ts : List Token} {s : Symbol} {op : UnaryOp} (offset : Nat) :
    Spells fs ts → Precedes op.level s op → expectedLevel fs ≤ op.level →
      Spells (.unary op offset :: fs) (ts ++ [.symbol s])
  | binary {fs : List Frame} {ts us : List Token} {s : Symbol} {op : BinaryOp} {n : Nat}
      {left : Expr} (offset : Nat) :
    Spells fs ts → Joins op.level s op → expectedLevel fs ≤ op.level →
      Derives op.level n us left → nesting fs + n ≤ limit →
      Spells (.binary left op offset :: fs) (ts ++ (us ++ [.symbol s]))

/-- Tokens that are those of the open frames and of an expression of a level, which may stand
there and is within the limits. -/
inductive Holds (level : Level) (fs : List Frame) (e : Expr) : List Token → Prop
  | intro {ts us : List Token} {n : Nat} : Spells limit fs ts → Derives level n us e →
    expectedLevel fs ≤ level → nesting fs + n ≤ limit → e.height ≤ limit →
      Holds level fs e (ts ++ us)

/-- The tokens that have been read in a state. -/
inductive Reads : State → List Token → Prop
  | wantsOperand {fs : List Frame} {ts : List Token} : Spells limit fs ts →
    nesting fs ≤ limit → Reads (.wantsOperand fs) ts
  | hasOperand {fs : List Frame} {e : Expr} {ts : List Token} :
    Holds limit .operand fs e ts → Reads (.hasOperand fs e) ts
  | complete {e : Expr} {ts : List Token} {n : Nat} : DerivesStatement n ts e → n ≤ limit →
    e.height ≤ limit → Reads (.complete e) ts

end Spells

variable {limit : Nat}

/-! ## Closing frames -/

lemma close_nil (level : Level) (e : Expr) : close limit level [] e = .ok ([], e) := rfl

lemma close_paren (level : Level) (fs : List Frame) (e : Expr) :
    close limit level (.paren :: fs) e = .ok (.paren :: fs, e) := rfl

/-- An operator that binds at least as tight as what follows is closed, if the expression that
it makes is not too high. -/
lemma close_unary {level : Level} {op : UnaryOp} (h : level ≤ op.level) (offset : Nat)
    (fs : List Frame) (e : Expr) :
    close limit level (.unary op offset :: fs) e
      = (checkHeight limit offset (.unary op e)).bind (close limit level fs) := by
  rw [close, if_pos h]
  rfl

lemma close_binary {level : Level} {op : BinaryOp} (h : level ≤ op.level) (left : Expr)
    (offset : Nat) (fs : List Frame) (e : Expr) :
    close limit level (.binary left op offset :: fs) e
      = (checkHeight limit offset (.binary op left e)).bind (close limit level fs) := by
  rw [close, if_pos h]
  rfl

/-- Whether a token that closes frames of a level closes a frame. -/
def Frame.closes (level : Level) : Frame → Bool
  | .paren => false
  | .unary op _ => decide (level ≤ op.level)
  | .binary _ op _ => decide (level ≤ op.level)

/-- Where the operator of a frame stands. -/
def Frame.offset? : Frame → Option Nat
  | .paren => none
  | .unary _ offset => some offset
  | .binary _ _ offset => some offset

/-- The expression that a frame makes of the operand behind it. -/
def Frame.around : Frame → Expr → Expr
  | .paren, e => e
  | .unary op _, e => .unary op e
  | .binary left op _, e => .binary op left e

lemma close_cons_of_closes {level : Level} {frame : Frame} (h : frame.closes level = true) :
    ∃ offset, frame.offset? = some offset ∧ ∀ limit fs e, close limit level (frame :: fs) e
      = (checkHeight limit offset (frame.around e)).bind (close limit level fs) := by
  cases frame with
  | paren => cases h
  | unary op offset =>
    exact ⟨offset, rfl, fun limit fs e => close_unary (of_decide_eq_true h) offset fs e⟩
  | binary left op offset =>
    exact ⟨offset, rfl, fun limit fs e => close_binary (of_decide_eq_true h) left offset fs e⟩

lemma close_cons_of_not_closes {level : Level} {frame : Frame} (h : frame.closes level = false)
    (fs : List Frame) (e : Expr) : close limit level (frame :: fs) e = .ok (frame :: fs, e) := by
  cases frame with
  | paren => rfl
  | unary op offset => rw [close, if_neg (of_decide_eq_false h)]
  | binary left op offset => rw [close, if_neg (of_decide_eq_false h)]

/-- Where an expression of the level of a binary operator may stand, the operator closes
nothing. -/
lemma close_of_expectedLevel_le {op : BinaryOp} {fs : List Frame}
    (h : expectedLevel fs ≤ op.level) (e : Expr) : close limit op.level fs e = .ok (fs, e) := by
  rcases fs with _ | ⟨_ | ⟨op', offset⟩ | ⟨left, op', offset⟩, fs⟩
  · rfl
  · rfl
  · have hlt : ¬ op.level ≤ op'.level := fun hle =>
      level_unary_ne_binary op' op (Level.le_antisymm h hle)
    rw [close, if_neg hlt]
  · have hlt : ¬ op.level ≤ op'.level :=
      (Level.tighter_le_iff op'.level_ne_operand).1 h
    rw [close, if_neg hlt]

lemma checkHeight_of_le {e : Expr} (h : e.height ≤ limit) (offset : Nat) :
    checkHeight limit offset e = .ok e := if_pos h

lemma eq_ok_of_checkHeight_bind {α : Type} {offset : Nat} {e : Expr} {F : Expr → Except Fault α}
    {a : α} (h : (checkHeight limit offset e).bind F = .ok a) :
    e.height ≤ limit ∧ F e = .ok a := by
  by_cases hle : e.height ≤ limit
  · rw [checkHeight_of_le hle] at h
    exact ⟨hle, h⟩
  · rw [checkHeight, if_neg hle] at h
    cases h

/-! ## What is read has been derived -/

lemma Holds.of_le {a l : Level} {fs : List Frame} {e : Expr} {ts : List Token}
    (h : Holds limit l fs e ts) (ha : a ≤ l) (hfs : expectedLevel fs ≤ a) :
    Holds limit a fs e ts := by
  obtain ⟨hs, hd, -, hn, hheight⟩ := h
  exact .intro hs (hd.of_le ha) hfs hn hheight

/-- An operand and the unary operator in front of it. -/
lemma Holds.unary {l : Level} {op : UnaryOp} {offset : Nat} {fs : List Frame} {e : Expr}
    {ts : List Token} (h : Holds limit l (.unary op offset :: fs) e ts)
    (hheight : (Expr.unary op e).height ≤ limit) : Holds limit op.level fs (.unary op e) ts := by
  obtain ⟨hs, hd, hl, hn, -⟩ := h
  cases hs with
  | unary _ hs hop hfs =>
    rw [nesting, Nat.add_right_comm, Nat.add_assoc] at hn
    rw [List.append_assoc]
    exact .intro hs (.unary hop (hd.of_le hl)) hfs hn hheight

/-- The two operands of a binary operator. -/
lemma Holds.binary {l : Level} {left : Expr} {op : BinaryOp} {offset : Nat} {fs : List Frame}
    {e : Expr} {ts : List Token} (h : Holds limit l (.binary left op offset :: fs) e ts)
    (hheight : (Expr.binary op left e).height ≤ limit) :
    Holds limit op.level fs (.binary op left e) ts := by
  obtain ⟨hs, hd, hl, hn, -⟩ := h
  cases hs with
  | binary _ hs hop hfs hleft hnest =>
    rw [nesting] at hn
    rw [List.append_assoc, List.append_assoc]
    refine .intro hs (.binary hop hleft (hd.of_le hl)) hfs ?_ hheight
    omega

/-- Closing keeps the tokens, and what it makes is an expression of the level asked for. -/
lemma Holds.close {level l : Level} {fs gs : List Frame} {e f : Expr} {ts : List Token}
    (h : Holds limit l fs e ts) (hl : level ≤ l)
    (hclose : close limit level fs e = .ok (gs, f)) : Holds limit level gs f ts := by
  induction fs generalizing e l with
  | nil =>
    rw [close_nil] at hclose
    cases hclose
    exact h.of_le hl level.disjunction_le
  | cons frame rest ih =>
    cases frame with
    | paren =>
      rw [close_paren] at hclose
      cases hclose
      exact h.of_le hl level.disjunction_le
    | unary op offset =>
      by_cases hle : level ≤ op.level
      · rw [close_unary hle] at hclose
        obtain ⟨hheight, hclose⟩ := eq_ok_of_checkHeight_bind hclose
        exact ih (h.unary hheight) hle hclose
      · -- what stays open binds looser than the level
        rw [Parsing.close, if_neg hle] at hclose
        cases hclose
        exact h.of_le hl (Level.le_of_not_le hle)
    | binary left op offset =>
      by_cases hle : level ≤ op.level
      · rw [close_binary hle] at hclose
        obtain ⟨hheight, hclose⟩ := eq_ok_of_checkHeight_bind hclose
        exact ih (h.binary hheight) hle hclose
      · rw [Parsing.close, if_neg hle] at hclose
        cases hclose
        exact h.of_le hl ((Level.tighter_le_iff op.level_ne_operand).2 hle)

/-- After closing everything that can be closed, nothing or a parenthesis is innermost. -/
lemma eq_nil_or_paren {fs : List Frame} (h : expectedLevel fs ≤ .disjunction) :
    fs = [] ∨ ∃ rest, fs = .paren :: rest := by
  rcases fs with _ | ⟨_ | ⟨op, offset⟩ | ⟨left, op, offset⟩, rest⟩
  · exact Or.inl rfl
  · exact Or.inr ⟨rest, rfl⟩
  · cases op <;> cases (Nat.le_zero.1 h)
  · exact absurd (op.level.disjunction_le) ((Level.tighter_le_iff op.level_ne_operand).1 h)

/-! ## Reading an operand -/

lemma openFrame_of_lt {fs : List Frame} (h : nesting fs < limit) (frame : Frame) (offset : Nat) :
    openFrame limit frame offset fs = .ok (.wantsOperand (frame :: fs)) := if_pos h

lemma eq_ok_of_openFrame {frame : Frame} {offset : Nat} {fs : List Frame} {state : State}
    (h : openFrame limit frame offset fs = .ok state) :
    nesting fs < limit ∧ state = .wantsOperand (frame :: fs) := by
  by_cases hlt : nesting fs < limit
  · rw [openFrame_of_lt hlt] at h
    exact ⟨hlt, (Except.ok.inj h).symm⟩
  · rw [openFrame, if_neg hlt] at h
    cases h

lemma readOperand_of_precedes {level : Level} {s : Symbol} {op : UnaryOp} {fs : List Frame}
    (hop : Precedes level s op) (hfs : expectedLevel fs ≤ op.level) (offset : Nat) :
    readOperand limit fs ⟨.symbol s, offset⟩
      = openFrame limit (.unary op offset) offset fs := by
  cases hop <;> exact if_pos hfs

/-- A symbol that may stand where an operand comes next opens a frame. -/
lemma openFrame_of_readOperand {s : Symbol} {fs : List Frame} {offset : Nat} {state : State}
    (h : readOperand limit fs ⟨.symbol s, offset⟩ = .ok state) :
    (s = .openParen ∧ openFrame limit .paren offset fs = .ok state) ∨
      ∃ op, Precedes op.level s op ∧ expectedLevel fs ≤ op.level ∧
        openFrame limit (.unary op offset) offset fs = .ok state := by
  have of_precedes {level : Level} {s : Symbol} {op : UnaryOp} (hop : Precedes level s op)
      (h : readOperand limit fs ⟨.symbol s, offset⟩ = .ok state) :
      Precedes op.level s op ∧ expectedLevel fs ≤ op.level ∧
        openFrame limit (.unary op offset) offset fs = .ok state := by
    by_cases hfs : expectedLevel fs ≤ op.level
    · rw [readOperand_of_precedes hop hfs] at h
      refine ⟨?_, hfs, h⟩
      cases hop <;> constructor
    · have hunexpected : readOperand limit fs ⟨.symbol s, offset⟩
          = .error ⟨offset, .unexpectedToken .operand (.symbol s)⟩ := by
        cases hop <;> exact if_neg hfs
      cases hunexpected.symm.trans h
  cases s <;> try cases h
  case openParen => exact Or.inl ⟨rfl, h⟩
  case bang => exact Or.inr ⟨_, of_precedes .bang h⟩
  case minus => exact Or.inr ⟨_, of_precedes .minus h⟩

lemma Reads.readOperand (hlimit : 0 < limit) {fs : List Frame} {ts : List Token}
    {t : PlacedToken} {state : State} (hs : Spells limit fs ts) (hn : nesting fs ≤ limit)
    (h : readOperand limit fs t = .ok state) : Reads limit state (ts ++ [t.token]) := by
  obtain ⟨token, offset⟩ := t
  rcases token with v | p | s
  · cases h
    exact .hasOperand (.intro hs (.literal v) (Level.le_operand _) hn hlimit)
  · cases h
    exact .hasOperand (.intro hs (.path p) (Level.le_operand _) hn hlimit)
  · rcases openFrame_of_readOperand h with ⟨rfl, hopen⟩ | ⟨op, hop, hfs, hopen⟩
    · obtain ⟨hlt, rfl⟩ := eq_ok_of_openFrame hopen
      exact .wantsOperand (.paren hs) hlt
    · obtain ⟨hlt, rfl⟩ := eq_ok_of_openFrame hopen
      exact .wantsOperand (.unary offset hs hop hfs) hlt

/-! ## Reading an operator -/

/-- After an operand there may be a binary operator, the semicolon or a closing parenthesis, and
each closes what it can. -/
lemma readOperator_eq_ok_iff {fs : List Frame} {e : Expr} {t : PlacedToken} {state : State} :
    readOperator limit fs e t = .ok state ↔
      (∃ op gs f, t.token.binary? = some op ∧ close limit op.level fs e = .ok (gs, f) ∧
        state = .wantsOperand (.binary f op t.offset :: gs)) ∨
      (∃ f, t.token = .symbol .semicolon ∧ close limit .disjunction fs e = .ok ([], f) ∧
        state = .complete f) ∨
      (∃ g gs f, t.token = .symbol .closeParen ∧
        close limit .disjunction fs e = .ok (g :: gs, f) ∧ state = .hasOperand gs f) := by
  obtain ⟨token, offset⟩ := t
  constructor
  · intro h
    rcases hop : token.binary? with _ | op
    · simp only [readOperator, hop] at h
      rcases hclose : close limit .disjunction fs e with _ | ⟨_ | ⟨g, gs⟩, f⟩ <;> rw [hclose] at h
      · cases h
      · by_cases hsemicolon : token = .symbol .semicolon
        · subst hsemicolon
          cases h
          exact Or.inr (Or.inl ⟨f, rfl, rfl, rfl⟩)
        · cases (if_neg hsemicolon).symm.trans h
      · by_cases hparen : token = .symbol .closeParen
        · subst hparen
          cases h
          exact Or.inr (Or.inr ⟨g, gs, f, rfl, rfl, rfl⟩)
        · cases (if_neg hparen).symm.trans h
    · simp only [readOperator, hop] at h
      rcases hclose : close limit op.level fs e with _ | ⟨gs, f⟩ <;> rw [hclose] at h
      · cases h
      · cases h
        exact Or.inl ⟨op, gs, f, rfl, hclose, rfl⟩
  · rintro (⟨op, gs, f, hop, hclose, rfl⟩ | ⟨f, rfl, hclose, rfl⟩ | ⟨g, gs, f, rfl, hclose, rfl⟩)
    · simp only [readOperator, hop, hclose]
      rfl
    · simp only [readOperator, Token.binary?, Symbol.binary?, hclose]
      rfl
    · simp only [readOperator, Token.binary?, Symbol.binary?, hclose]
      rfl

lemma Reads.readOperator {fs : List Frame} {e : Expr} {ts : List Token} {t : PlacedToken}
    {state : State} (he : Holds limit .operand fs e ts)
    (h : readOperator limit fs e t = .ok state) : Reads limit state (ts ++ [t.token]) := by
  rcases readOperator_eq_ok_iff.1 h with ⟨op, gs, f, hop, hclose, rfl⟩ | ⟨f, ht, hclose, rfl⟩ |
    ⟨g, gs, f, ht, hclose, rfl⟩
  · -- a binary operator: what was closed is its left operand
    obtain ⟨s, ht, hjoins⟩ := exists_joins_of_binary? hop
    obtain ⟨hs, hd, hgs, hn, -⟩ := he.close (Level.le_operand _) hclose
    rw [ht, List.append_assoc]
    exact .wantsOperand (.binary _ hs hjoins hgs hd hn) (Nat.le_of_add_right_le hn)
  · -- the semicolon: no frame is left, so the operand has all tokens
    obtain ⟨hs, hd, -, hn, hheight⟩ := he.close (Level.disjunction_le _) hclose
    cases hs
    rw [ht]
    rw [nesting, Nat.zero_add] at hn
    exact .complete ⟨_, rfl, hd⟩ hn hheight
  · -- a closing parenthesis: the innermost frame left can only be its counterpart
    obtain ⟨hs, hd, hgs, hn, hheight⟩ := he.close (Level.disjunction_le _) hclose
    rcases eq_nil_or_paren hgs with hnil | ⟨rest, hparen⟩
    · cases hnil
    · cases hparen
      cases hs with
      | paren hs =>
        rw [nesting, Nat.add_right_comm, Nat.add_assoc] at hn
        rw [ht, List.append_assoc, List.append_assoc]
        exact .hasOperand (.intro hs (.paren hd) (Level.le_operand _) hn hheight)

/-! ## Reading a statement -/

lemma Reads.read (hlimit : 0 < limit) {state state' : State} {ts : List Token} {t : PlacedToken}
    (hstate : Reads limit state ts) (h : state.read limit t = .ok state') :
    Reads limit state' (ts ++ [t.token]) := by
  cases hstate with
  | wantsOperand hs hn => exact Reads.readOperand hlimit hs hn h
  | hasOperand he => exact Reads.readOperator he h
  | complete => cases h

lemma readAll_nil (state : State) : state.readAll limit [] = .ok state := rfl

lemma readAll_cons (state : State) (t : PlacedToken) (ts : List PlacedToken) :
    state.readAll limit (t :: ts) = (state.read limit t).bind fun s => s.readAll limit ts := rfl

lemma readAll_append (state : State) (ts us : List PlacedToken) :
    state.readAll limit (ts ++ us)
      = (state.readAll limit ts).bind fun s => s.readAll limit us :=
  List.foldlM_append

/-- The state after some tokens stands for all of them. -/
lemma Reads.readAll (hlimit : 0 < limit) {state state' : State} {ts : List Token}
    {us : List PlacedToken} (hstate : Reads limit state ts)
    (h : state.readAll limit us = .ok state') :
    Reads limit state' (ts ++ us.map PlacedToken.token) := by
  induction us generalizing state ts with
  | nil =>
    cases h
    simpa using hstate
  | cons t rest ih =>
    rw [readAll_cons] at h
    rcases hread : state.read limit t with _ | next <;> rw [hread] at h
    · cases h
    · simpa using ih (hstate.read hlimit hread) h

/-! ## What can be derived is read -/

/-- Reading tokens behind some frames gives an operand that is as good as the expression `e`:
every token that closes frames of the level or tighter ones only makes the same of both. -/
def Reaches (limit : Nat) (level : Level) (fs : List Frame) (us : List PlacedToken) (e : Expr) :
    Prop :=
  ∃ gs f, (State.wantsOperand fs).readAll limit us = .ok (.hasOperand gs f) ∧
    ∀ l, l ≤ level → close limit l gs f = close limit l fs e

lemma Reaches.paren {fs : List Frame} {us : List PlacedToken} {e : Expr}
    (h : Reaches limit .disjunction (.paren :: fs) us e) (hn : nesting fs < limit)
    (offset offset' : Nat) :
    Reaches limit .operand fs
      (⟨.symbol .openParen, offset⟩ :: (us ++ [⟨.symbol .closeParen, offset'⟩])) e := by
  obtain ⟨gs, f, hread, hclose⟩ := h
  have hopen : (State.wantsOperand fs).read limit ⟨.symbol .openParen, offset⟩
      = .ok (.wantsOperand (.paren :: fs)) := openFrame_of_lt hn _ _
  have hshut : (State.hasOperand gs f).read limit ⟨.symbol .closeParen, offset'⟩
      = .ok (.hasOperand fs e) := by
    rw [State.read, readOperator_eq_ok_iff]
    refine Or.inr (Or.inr ⟨.paren, fs, e, rfl, ?_, rfl⟩)
    rw [hclose _ (Level.le_refl _), close_paren]
  refine ⟨fs, e, ?_, fun l _ => rfl⟩
  simp only [readAll_cons, readAll_append, readAll_nil, hopen, hread, hshut, Except.bind]

lemma Reaches.unary {level : Level} {s : Symbol} {op : UnaryOp} {fs : List Frame}
    {us : List PlacedToken} {e : Expr} {offset : Nat} (hop : Precedes level s op)
    (hfs : expectedLevel fs ≤ level) (hn : nesting fs < limit)
    (hheight : (Expr.unary op e).height ≤ limit)
    (h : Reaches limit level (.unary op offset :: fs) us e) :
    Reaches limit level fs (⟨.symbol s, offset⟩ :: us) (.unary op e) := by
  obtain ⟨gs, f, hread, hclose⟩ := h
  obtain ⟨-, rfl⟩ := precedes_iff.1 hop
  have hopen : (State.wantsOperand fs).read limit ⟨.symbol s, offset⟩
      = .ok (.wantsOperand (.unary op offset :: fs)) :=
    (readOperand_of_precedes hop hfs offset).trans (openFrame_of_lt hn _ _)
  refine ⟨gs, f, ?_, fun l hl => ?_⟩
  · simp only [readAll_cons, hopen, hread, Except.bind]
  · rw [hclose l hl, close_unary hl, checkHeight_of_le hheight]
    rfl

lemma Reaches.binary {level : Level} {s : Symbol} {op : BinaryOp} {fs : List Frame}
    {us vs : List PlacedToken} {left right : Expr} {offset : Nat} (hop : Joins level s op)
    (hfs : expectedLevel fs ≤ level) (hheight : (Expr.binary op left right).height ≤ limit)
    (hl : Reaches limit level fs us left)
    (hr : Reaches limit level.tighter (.binary left op offset :: fs) vs right) :
    Reaches limit level fs (us ++ ⟨.symbol s, offset⟩ :: vs) (.binary op left right) := by
  obtain ⟨gs, f, hreadl, hclosel⟩ := hl
  obtain ⟨gs', f', hreadr, hcloser⟩ := hr
  obtain ⟨hs, rfl⟩ := joins_iff.1 hop
  have hopen : (State.hasOperand gs f).read limit ⟨.symbol s, offset⟩
      = .ok (.wantsOperand (.binary left op offset :: fs)) := by
    rw [State.read, readOperator_eq_ok_iff]
    refine Or.inl ⟨op, fs, left, hs, ?_, rfl⟩
    rw [hclosel _ (Level.le_refl _), close_of_expectedLevel_le hfs]
  refine ⟨gs', f', ?_, fun l hle => ?_⟩
  · simp only [readAll_append, readAll_cons, hreadl, hopen, hreadr, Except.bind]
  · rw [hcloser l (Level.le_trans hle (Level.le_tighter _)), close_binary hle,
      checkHeight_of_le hheight]
    rfl

/-- The tokens of an expression are read behind any frames that it may follow. -/
lemma reaches_of_derives {level : Level} {n : Nat} {ts : List Token} {e : Expr}
    (h : Derives level n ts e) {us : List PlacedToken} (hus : us.map PlacedToken.token = ts)
    {fs : List Frame} (hfs : expectedLevel fs ≤ level) (hn : nesting fs + n ≤ limit)
    (hheight : e.height ≤ limit) : Reaches limit level fs us e := by
  induction h generalizing us fs with
  | literal v =>
    obtain ⟨t, rfl, ht⟩ := List.map_eq_singleton_iff.1 hus
    cases t
    cases ht
    exact ⟨fs, .literal v, rfl, fun l _ => rfl⟩
  | path p =>
    obtain ⟨t, rfl, ht⟩ := List.map_eq_singleton_iff.1 hus
    cases t
    cases ht
    exact ⟨fs, .path p, rfl, fun l _ => rfl⟩
  | paren _ ih =>
    obtain ⟨t, rest, rfl, ht, hrest⟩ := List.map_eq_cons_iff.1 hus
    obtain ⟨vs, closing, rfl, hvs, hclosing⟩ := List.map_eq_append_iff.1 hrest
    obtain ⟨t', rfl, ht'⟩ := List.map_eq_singleton_iff.1 hclosing
    cases t
    cases ht
    cases t'
    cases ht'
    refine Reaches.paren (ih hvs (Level.le_refl _) ?_ hheight) (by omega) _ _
    rw [nesting]
    omega
  | unary hop _ ih =>
    obtain ⟨t, rest, rfl, ht, hrest⟩ := List.map_eq_cons_iff.1 hus
    cases t
    cases ht
    rw [Expr.height] at hheight
    refine Reaches.unary hop hfs (by omega) hheight (ih hrest ?_ ?_ (by omega))
    · rw [expectedLevel, (precedes_iff.1 hop).2]
      exact Level.le_refl _
    · rw [nesting]
      omega
  | binary hop _ _ ihl ihr =>
    obtain ⟨vs, rest, rfl, hvs, hrest⟩ := List.map_eq_append_iff.1 hus
    obtain ⟨t, ws, rfl, ht, hws⟩ := List.map_eq_cons_iff.1 hrest
    cases t
    cases ht
    rw [Expr.height] at hheight
    refine Reaches.binary hop hfs hheight (ihl hvs hfs (by omega) (by omega))
      (ihr hws ?_ ?_ (by omega))
    · rw [expectedLevel, (joins_iff.1 hop).2]
      exact Level.le_refl _
    · rw [nesting]
      omega
  | climb _ ih =>
    obtain ⟨gs, f, hread, hclose⟩ := ih hus (Level.le_trans hfs (Level.le_tighter _)) hn hheight
    exact ⟨gs, f, hread, fun l hl => hclose l (Level.le_trans hl (Level.le_tighter _))⟩

/-! ## Statements -/

/-- The parser completes a statement exactly when its tokens derive it within the limits. -/
lemma readAll_eq_complete_iff (hlimit : 0 < limit) {tokens : List PlacedToken} {e : Expr} :
    (State.wantsOperand []).readAll limit tokens = .ok (.complete e) ↔
      ∃ n, DerivesStatement n (tokens.map PlacedToken.token) e ∧ n ≤ limit ∧ e.height ≤ limit := by
  constructor
  · intro h
    have hstart : Reads limit (.wantsOperand []) [] := .wantsOperand .nil (Nat.zero_le _)
    cases hstart.readAll hlimit h with
    | complete hd hn hheight => exact ⟨_, hd, hn, hheight⟩
  · rintro ⟨n, ⟨us, hus, hd⟩, hn, hheight⟩
    obtain ⟨vs, last, rfl, hvs, hlast⟩ := List.map_eq_append_iff.1 hus
    obtain ⟨t, rfl, ht⟩ := List.map_eq_singleton_iff.1 hlast
    have hn : nesting [] + n ≤ limit := by simpa [nesting] using hn
    obtain ⟨gs, f, hread, hclose⟩ := reaches_of_derives hd hvs (Level.le_refl _) hn hheight
    have hcomplete : (State.hasOperand gs f).read limit t = .ok (.complete e) := by
      rw [State.read, readOperator_eq_ok_iff]
      refine Or.inr (Or.inl ⟨e, ht, ?_, rfl⟩)
      rw [hclose _ (Level.le_refl _), close_nil]
    simp only [readAll_append, readAll_cons, readAll_nil, hread, hcomplete, Except.bind]

lemma eq_complete_of_finish {state : State} {offset : Nat} {e : Expr}
    (h : state.finish limit offset = .ok e) : state = .complete e := by
  cases state with
  | wantsOperand fs => cases h
  | hasOperand fs f =>
    rw [State.finish] at h
    rcases hclose : close limit .disjunction fs f with _ | ⟨_ | ⟨g, gs⟩, f'⟩ <;>
      rw [hclose] at h <;> cases h
  | complete f =>
    cases h
    rfl

end Parsing

open Parsing

/-- Some tokens derive one expression at most, within any limits. -/
lemma DerivesStatement.unique {n k : Nat} {ts : List Token} {e f : Expr}
    (he : DerivesStatement n ts e) (hf : DerivesStatement k ts f) : e = f := by
  -- the parser reads both, if its limit is great enough
  let limit := max (max n e.height) (max k f.height)
  let tokens := ts.map fun t => (⟨t, 0⟩ : PlacedToken)
  have htokens : tokens.map PlacedToken.token = ts := by
    rw [List.map_map]
    exact List.map_id ts
  have hlimit : 0 < limit := by
    have := e.height_pos
    omega
  have hreade : (State.wantsOperand []).readAll limit tokens = .ok (.complete e) :=
    (readAll_eq_complete_iff hlimit).2 ⟨n, by rwa [htokens], by omega, by omega⟩
  have hreadf : (State.wantsOperand []).readAll limit tokens = .ok (.complete f) :=
    (readAll_eq_complete_iff hlimit).2 ⟨k, by rwa [htokens], by omega, by omega⟩
  exact State.complete.inj (Except.ok.inj (hreade.symm.trans hreadf))

lemma Expr.ofTokens_eq_ok_iff {length : Nat} {tokens : List PlacedToken} {e : Expr} :
    Expr.ofTokens length tokens = .ok e ↔
      ∃ n, DerivesStatement n (tokens.map PlacedToken.token) e ∧ n ≤ maxDepth ∧
        e.height ≤ maxDepth := by
  rw [← readAll_eq_complete_iff (show 0 < maxDepth by decide), ofTokens]
  constructor
  · intro h
    rcases hstate : (State.wantsOperand []).readAll maxDepth tokens with _ | state <;>
      rw [hstate] at h
    · cases h
    · rw [eq_complete_of_finish h]
  · intro h
    rw [h]
    rfl

lemma Expr.parse_eq_ok_iff {text : String} {e : Expr} :
    Expr.parse text = .ok e ↔ ∃ tokens, tokenize 0 text.toList = .ok tokens ∧
      Expr.ofTokens (byteLength text.toList) tokens = .ok e := by
  rw [parse, ofChars]
  rcases tokenize 0 text.toList with fault | tokens
  · constructor
    · intro h
      cases h
    · rintro ⟨_, h, -⟩
      cases h
  · have hbind : (Except.ok tokens >>= fun tokens => Expr.ofTokens (byteLength text.toList) tokens)
        = Expr.ofTokens (byteLength text.toList) tokens := rfl
    rw [hbind]
    constructor
    · intro h
      refine ⟨tokens, rfl, ?_⟩
      rcases hexpr : Expr.ofTokens (byteLength text.toList) tokens with fault | f <;>
        rw [hexpr] at h
      · cases h
      · cases h
        rfl
    · rintro ⟨_, h, hexpr⟩
      cases h
      rw [hexpr]
      rfl

lemma Statement.compile_eq_ok_iff {text : String} {s : Statement} :
    compile text = .ok s ↔ Expr.parse text = .ok s.expr ∧ s.text = text := by
  rw [compile]
  rcases Expr.parse text with err | e
  · simp [Except.map]
  · obtain ⟨text', expr⟩ := s
    simp [Except.map, and_comm, eq_comm]

/-- **The parser accepts exactly its grammar.**  A text has an expression if and only if it
consists of tokens from which the grammar derives that expression as a statement, with at most
`maxDepth` parentheses and unary operators open at once and a height of at most `maxDepth`.
The tokens alone determine the expression, whatever its height and nesting. -/
theorem Expr.parse_accepts_grammar (text : String) :
    (∀ e, Expr.parse text = .ok e ↔ ∃ tokens n, tokenize 0 text.toList = .ok tokens ∧
      DerivesStatement n (tokens.map PlacedToken.token) e ∧ n ≤ maxDepth ∧
        e.height ≤ maxDepth) ∧
    (∀ n k ts e f, DerivesStatement n ts e → DerivesStatement k ts f → e = f) ∧
    (∀ s, Statement.compile text = .ok s → s.expr.height ≤ maxDepth) := by
  have hparse (e : Expr) : Expr.parse text = .ok e ↔ ∃ tokens n,
      tokenize 0 text.toList = .ok tokens ∧ DerivesStatement n (tokens.map PlacedToken.token) e ∧
        n ≤ maxDepth ∧ e.height ≤ maxDepth := by
    simp only [parse_eq_ok_iff, ofTokens_eq_ok_iff, exists_and_left]
  refine ⟨hparse, fun n k ts e f => DerivesStatement.unique, fun s h => ?_⟩
  rw [Statement.compile] at h
  rcases hexpr : Expr.parse text with _ | e <;> rw [hexpr] at h
  · cases h
  · cases h
    obtain ⟨_, _, _, _, _, hheight⟩ := (hparse e).1 hexpr
    exact hheight

/-- A negation may follow `&&`. -/
example : Expr.parse "true && !true;"
    = .ok (.binary (.logic .and) (.literal (.bool true))
        (.unary .not (.literal (.bool true)))) := by cbv

/-- A negation is no operand of a comparison. -/
example : Expr.parse "1 < !true;"
    = .error ⟨"1 < !true;", ⟨4, .unexpectedToken .operand (.symbol .bang)⟩⟩ := by cbv

end GuardedMachine
