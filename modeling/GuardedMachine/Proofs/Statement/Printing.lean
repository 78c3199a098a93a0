/-
# The tokens of printed expressions

Printing puts parentheses around a binary operator with its operands, and nowhere else.  So a
printed expression binds as tight as an operand, unless it starts with a unary operator; then
it binds as that operator does (`Expr.outerLevel`).

If every operand binds as tight as its operator asks (`Expr.Binds`), the tokens derive the
expression, with fewer frames open at once than it is high (`Expr.Binds.derives`).  Otherwise
they are read as something else, if at all (`binds_of_readAll`).  After the tokens of an
expression its unary operators are still open, and a binary operator that follows closes only
those that bind at least as tight.  If one stays open, it ends up around the binary operator,
and what the parser has made is not the expression.
-/
import Mathlib.Data.List.TakeWhile
import Mathlib.Logic.Basic
import GuardedMachine.Proofs.Statement.Parsing

namespace GuardedMachine

/-! ## The symbols of operators -/

/-- The symbol that a binary operator is written with. -/
def BinaryOp.mark : BinaryOp → Symbol
  | .logic .or => .or
  | .logic .and => .and
  | .equality .equal => .equal
  | .equality .notEqual => .notEqual
  | .order .less => .less
  | .order .atMost => .atMost
  | .order .greater => .greater
  | .order .atLeast => .atLeast
  | .arith .add => .plus
  | .arith .sub => .minus
  | .arith .mul => .star
  | .arith .div => .slash

/-- The symbol that a unary operator is written with. -/
def UnaryOp.mark : UnaryOp → Symbol
  | .not => .bang
  | .neg => .minus

lemma BinaryOp.joins_mark (op : BinaryOp) : Joins op.level op.mark op := by
  rcases op with (_ | _ | _ | _) | (_ | _ | _ | _) | (_ | _) | (_ | _) <;> constructor

lemma UnaryOp.precedes_mark (op : UnaryOp) : Precedes op.level op.mark op := by
  cases op <;> constructor

namespace Expr

/-- The tokens of a printed expression. -/
def tokens : Expr → List Token
  | .literal v => [.literal v]
  | .path p => [.path p]
  | .unary op operand => .symbol op.mark :: operand.tokens
  | .binary op left right =>
    .symbol .openParen
      :: ((left.tokens ++ .symbol op.mark :: right.tokens) ++ [.symbol .closeParen])

/-- The level at which the tokens of a printed expression are an expression. -/
def outerLevel : Expr → Level
  | .unary op _ => op.level
  | _ => .operand

/-- Without parentheses of its own, each operand binds as tight as its operator asks. -/
def Binds : Expr → Prop
  | .literal _ => True
  | .path _ => True
  | .unary op operand => op.level ≤ operand.outerLevel ∧ operand.Binds
  | .binary op left right =>
    (op.level ≤ left.outerLevel ∧ left.Binds) ∧ op.level.tighter ≤ right.outerLevel ∧ right.Binds

/-! ## Where a negation may stand -/

/-- `x.Within e`: the expression `x` is `e` or a part of it. -/
inductive Within (x : Expr) : Expr → Prop
  | root : Within x x
  | operand {op : UnaryOp} {e : Expr} : Within x e → Within x (.unary op e)
  | left {op : BinaryOp} {l r : Expr} : Within x l → Within x (.binary op l r)
  | right {op : BinaryOp} {l r : Expr} : Within x r → Within x (.binary op l r)

/-- No `!` is a direct operand of a unary `-` or of a binary operator other than `&&` and
`||`. -/
structure NegationsLoose (e : Expr) : Prop where
  /-- No `!` directly follows a unary `-`. -/
  sign : ∀ x, (Expr.unary .neg x).Within e → ∀ y, x ≠ .unary .not y
  /-- No `!` is an operand of arithmetic or of a comparison. -/
  tight : ∀ op l r, (Expr.binary op l r).Within e → (∀ c, op ≠ .logic c) →
    (∀ y, l ≠ .unary .not y) ∧ ∀ y, r ≠ .unary .not y

lemma Within.trans {x y e : Expr} (hxy : x.Within y) (hye : y.Within e) : x.Within e := by
  induction hye with
  | root => exact hxy
  | operand _ ih => exact .operand ih
  | left _ ih => exact .left ih
  | right _ ih => exact .right ih

lemma NegationsLoose.of_within {x e : Expr} (h : e.NegationsLoose) (hx : x.Within e) :
    x.NegationsLoose :=
  ⟨fun y hy => h.sign y (hy.trans hx), fun op l r hy => h.tight op l r (hy.trans hx)⟩

section Loose

variable {e : Expr}

/-- Of the printed expressions, only a negation binds looser than a sign. -/
lemma le_outerLevel_iff {level : Level} (hlevel : level ≤ .sign) :
    level ≤ e.outerLevel ↔ level ≤ .negation ∨ ∀ y, e ≠ .unary .not y := by
  have hoperand : level ≤ .operand := level.le_operand
  rcases e with v | p | ⟨_ | _, x⟩ | ⟨op, l, r⟩ <;>
    simp [outerLevel, UnaryOp.level, hlevel, hoperand]

lemma unary_le_outerLevel_iff {op : UnaryOp} :
    op.level ≤ e.outerLevel ↔ (op = .neg → ∀ y, e ≠ .unary .not y) := by
  rw [le_outerLevel_iff (by cases op <;> decide)]
  cases op
  · simp [UnaryOp.level, Level.le_refl]
  · have hloose : ¬ UnaryOp.neg.level ≤ .negation := by decide
    simp [hloose]

/-- The operands of connectives may be negations. -/
lemma binary_le_outerLevel_iff {op : BinaryOp} {level : Level}
    (hlevel : level = op.level ∨ level = op.level.tighter) :
    level ≤ e.outerLevel ↔ ((∀ c, op ≠ .logic c) → ∀ y, e ≠ .unary .not y) := by
  have hsign : level ≤ .sign := by
    rcases hlevel with rfl | rfl <;>
      rcases op with (_ | _ | _ | _) | (_ | _ | _ | _) | (_ | _) | (_ | _) <;> decide
  have hnegation : level ≤ .negation ↔ ∃ c, op = .logic c := by
    rcases hlevel with rfl | rfl <;>
      rcases op with (_ | _ | _ | _) | (_ | _ | _ | _) | (_ | _) | (_ | _) <;>
        simp [BinaryOp.level, Level.le_def, Level.rank, Level.tighter]
  rw [le_outerLevel_iff hsign, hnegation, or_iff_not_imp_left, not_exists]

end Loose

/-- The operands bind as tight as they have to exactly if no negation is one of the wrong
operator. -/
lemma binds_iff_negationsLoose {e : Expr} : e.Binds ↔ e.NegationsLoose := by
  induction e with
  | literal v => exact ⟨fun _ => ⟨by rintro x ⟨⟩, by rintro op l r ⟨⟩⟩, fun _ => trivial⟩
  | path p => exact ⟨fun _ => ⟨by rintro x ⟨⟩, by rintro op l r ⟨⟩⟩, fun _ => trivial⟩
  | unary op e ih =>
    rw [Binds, ih, unary_le_outerLevel_iff]
    constructor
    · rintro ⟨hop, h⟩
      refine ⟨fun x hx => ?_, fun op' l r hx => ?_⟩
      · cases hx with
        | root => exact hop rfl
        | operand hx => exact h.sign x hx
      · cases hx with
        | operand hx => exact h.tight op' l r hx
    · intro h
      refine ⟨?_, h.of_within (.operand .root)⟩
      rintro rfl
      exact h.sign e .root
  | binary op l r ihl ihr =>
    rw [Binds, ihl, ihr, binary_le_outerLevel_iff (.inl rfl), binary_le_outerLevel_iff (.inr rfl)]
    constructor
    · rintro ⟨⟨hopl, hl⟩, hopr, hr⟩
      refine ⟨fun x hx => ?_, fun op' l' r' hx => ?_⟩
      · cases hx with
        | left hx => exact hl.sign x hx
        | right hx => exact hr.sign x hx
      · cases hx with
        | root => exact fun hop => ⟨hopl hop, hopr hop⟩
        | left hx => exact hl.tight op' l' r' hx
        | right hx => exact hr.tight op' l' r' hx
    · intro h
      have hroot := h.tight op l r .root
      exact ⟨⟨fun hop => (hroot hop).1, h.of_within (.left .root)⟩,
        fun hop => (hroot hop).2, h.of_within (.right .root)⟩

/-! ## Deriving the printed tokens -/

/-- Printing opens fewer parentheses and unary operators at once than the expression is high. -/
lemma Binds.derives {e : Expr} (h : e.Binds) :
    ∃ n, n < e.height ∧ Derives e.outerLevel n e.tokens e := by
  induction e with
  | literal v => exact ⟨0, Nat.one_pos, .literal v⟩
  | path p => exact ⟨0, Nat.one_pos, .path p⟩
  | unary op e ih =>
    obtain ⟨hop, he⟩ := h
    obtain ⟨n, hn, hd⟩ := ih he
    exact ⟨n + 1, Nat.succ_lt_succ hn, .unary op.precedes_mark (hd.of_le hop)⟩
  | binary op l r ihl ihr =>
    obtain ⟨⟨hopl, hl⟩, hopr, hr⟩ := h
    obtain ⟨n, hn, hdl⟩ := ihl hl
    obtain ⟨k, hk, hdr⟩ := ihr hr
    have hd := Derives.binary op.joins_mark (hdl.of_le hopl) (hdr.of_le hopr)
    refine ⟨max n k + 1, ?_, .paren (hd.of_le op.level.disjunction_le)⟩
    rw [height]
    omega

end Expr

namespace Parsing

/-! ## Reading the printed tokens -/

/-- The expression that frames make of an operand, the innermost first. -/
def wrap (fs : List Frame) (e : Expr) : Expr := fs.foldl (fun e frame => frame.around e) e

lemma wrap_nil (e : Expr) : wrap [] e = e := rfl

lemma wrap_cons (frame : Frame) (fs : List Frame) (e : Expr) :
    wrap (frame :: fs) e = wrap fs (frame.around e) := rfl

lemma wrap_append (fs gs : List Frame) (e : Expr) : wrap (fs ++ gs) e = wrap gs (wrap fs e) :=
  List.foldl_append

variable {limit : Nat}

/-- Closing goes on up to the first frame that is not closed. -/
lemma eq_wrap_of_close {level : Level} {fs gs : List Frame} {e f : Expr}
    (h : close limit level fs e = .ok (gs, f)) :
    gs = fs.dropWhile (Frame.closes level) ∧ f = wrap (fs.takeWhile (Frame.closes level)) e := by
  induction fs generalizing e with
  | nil =>
    cases h
    exact ⟨rfl, rfl⟩
  | cons frame rest ih =>
    rw [List.dropWhile_cons, List.takeWhile_cons]
    rcases hcloses : frame.closes level with _ | _
    · rw [close_cons_of_not_closes hcloses] at h
      cases h
      exact ⟨rfl, rfl⟩
    · obtain ⟨offset, -, hclose⟩ := close_cons_of_closes hcloses
      rw [hclose] at h
      exact ih (eq_ok_of_checkHeight_bind h).2

/-- The unary operators that are open after the tokens of an expression, the innermost first. -/
inductive Opens : Expr → List Frame → Prop
  | literal (v : Value) : Opens (.literal v) []
  | path (p : Path) : Opens (.path p) []
  | unary {e : Expr} {gs : List Frame} (op : UnaryOp) (offset : Nat) : Opens e gs →
    Opens (.unary op e) (gs ++ [.unary op offset])
  | binary (op : BinaryOp) (l r : Expr) : Opens (.binary op l r) []

lemma Opens.eq_unary {e : Expr} {gs : List Frame} (h : Opens e gs) {frame : Frame}
    (hframe : frame ∈ gs) : ∃ op offset, frame = .unary op offset := by
  induction h with
  | literal | path | binary => cases hframe
  | unary op offset _ ih =>
    rcases List.mem_append.1 hframe with hframe | hframe
    · exact ih hframe
    · exact ⟨op, offset, List.mem_singleton.1 hframe⟩

/-- If a token closes all of them, the expression may stand in front of it. -/
lemma Opens.le_outerLevel {e : Expr} {gs : List Frame} (h : Opens e gs) {level : Level}
    (hclosed : ∀ frame ∈ gs, frame.closes level = true) : level ≤ e.outerLevel := by
  cases h with
  | literal | path | binary => exact level.le_operand
  | unary op offset => exact of_decide_eq_true (hclosed (.unary op offset) (by simp))

lemma Opens.paren_notMem {e : Expr} {gs : List Frame} (h : Opens e gs) : Frame.paren ∉ gs := by
  intro hparen
  obtain ⟨op, offset, hunary⟩ := h.eq_unary hparen
  cases hunary

/-- A unary operator that a binary one leaves open ends up around it.  So if the binary one is
outermost, it has closed all of them. -/
lemma Opens.same_of_wrap {e f x l r : Expr} {gs : List Frame} {op : BinaryOp} (h : Opens e gs)
    (hsame : (wrap (gs.dropWhile (Frame.closes op.level))
      (.binary op (wrap (gs.takeWhile (Frame.closes op.level)) f) x)).same (.binary op l r)
        = true) :
    (∀ frame ∈ gs, frame.closes op.level = true) ∧ (wrap gs f).same l = true ∧
      x.same r = true := by
  have hclosed : gs.dropWhile (Frame.closes op.level) = [] := by
    rcases List.eq_nil_or_concat (gs.dropWhile (Frame.closes op.level)) with
      hnil | ⟨init, last, hlast⟩
    · exact hnil
    · exfalso
      rw [List.concat_eq_append] at hlast
      have hmem : last ∈ gs.dropWhile (Frame.closes op.level) := by
        rw [hlast]
        simp
      obtain ⟨op', offset, rfl⟩ := h.eq_unary ((List.dropWhile_suffix _).mem hmem)
      rw [hlast, wrap_append] at hsame
      cases hsame
  have hall := List.dropWhile_eq_nil_iff.1 hclosed
  rw [hclosed, List.takeWhile_eq_self_iff.2 hall, wrap_nil, Expr.same, Bool.and_eq_true,
    Bool.and_eq_true] at hsame
  exact ⟨hall, hsame.1.2, hsame.2⟩

section Closing

variable (level : Level) (gs fs : List Frame)

lemma takeWhile_closes_append_paren :
    (gs ++ .paren :: fs).takeWhile (Frame.closes level) = gs.takeWhile (Frame.closes level) := by
  induction gs with
  | nil => rfl
  | cons frame gs ih =>
    rw [List.cons_append, List.takeWhile_cons, List.takeWhile_cons, ih]

lemma dropWhile_closes_append_paren :
    (gs ++ .paren :: fs).dropWhile (Frame.closes level)
      = gs.dropWhile (Frame.closes level) ++ .paren :: fs := by
  induction gs with
  | nil => rfl
  | cons frame gs ih =>
    rw [List.cons_append, List.dropWhile_cons, List.dropWhile_cons, ih]
    split <;> rfl

variable {gs}

/-- The semicolon and a closing parenthesis close every operator. -/
lemma closes_disjunction (hgs : Frame.paren ∉ gs) :
    ∀ frame ∈ gs, frame.closes .disjunction = true := by
  intro frame hframe
  cases frame with
  | paren => exact absurd hframe hgs
  | unary op offset => exact decide_eq_true op.level.disjunction_le
  | binary left op offset => exact decide_eq_true op.level.disjunction_le

end Closing

/-! ### One token -/

section Tokens

variable {fs : List Frame} {e : Expr} {offset : Nat} {state : State}

lemma wantsOperand_of_openParen
    (h : (State.wantsOperand fs).read limit ⟨.symbol .openParen, offset⟩ = .ok state) :
    state = .wantsOperand (.paren :: fs) :=
  (eq_ok_of_openFrame h).2

lemma wantsOperand_of_unary {op : UnaryOp}
    (h : (State.wantsOperand fs).read limit ⟨.symbol op.mark, offset⟩ = .ok state) :
    expectedLevel fs ≤ op.level ∧ state = .wantsOperand (.unary op offset :: fs) := by
  rcases openFrame_of_readOperand h with ⟨hparen, -⟩ | ⟨op', hop', hfs, hopen⟩
  · cases op <;> cases hparen
  · have hop : op.mark.unary? = some op := (precedes_iff.1 op.precedes_mark).1
    obtain rfl : op' = op := by
      rw [(precedes_iff.1 hop').1] at hop
      exact Option.some.inj hop
    exact ⟨hfs, (eq_ok_of_openFrame hopen).2⟩

lemma wantsOperand_of_binary {op : BinaryOp}
    (h : (State.hasOperand fs e).read limit ⟨.symbol op.mark, offset⟩ = .ok state) :
    state = .wantsOperand (.binary (wrap (fs.takeWhile (Frame.closes op.level)) e) op offset
      :: fs.dropWhile (Frame.closes op.level)) := by
  have hop : op.mark.binary? = some op := (joins_iff.1 op.joins_mark).1
  rw [State.read, readOperator_eq_ok_iff] at h
  rcases h with ⟨op', gs, f, hop', hclose, rfl⟩ | ⟨f, ht, -, -⟩ | ⟨g, gs, f, ht, -, -⟩
  · obtain rfl : op' = op := Option.some.inj (hop'.symm.trans hop)
    obtain ⟨rfl, rfl⟩ := eq_wrap_of_close hclose
    rfl
  · rw [Token.symbol.inj ht] at hop
    cases hop
  · rw [Token.symbol.inj ht] at hop
    cases hop

lemma hasOperand_of_closeParen {gs : List Frame} (hgs : Frame.paren ∉ gs)
    (h : (State.hasOperand (gs ++ .paren :: fs) e).read limit ⟨.symbol .closeParen, offset⟩
      = .ok state) : state = .hasOperand fs (wrap gs e) := by
  rw [State.read, readOperator_eq_ok_iff] at h
  rcases h with ⟨op, _, _, hop, -, -⟩ | ⟨f, ht, -, -⟩ | ⟨g, hs, f, -, hclose, rfl⟩
  · cases hop
  · cases ht
  · obtain ⟨hdrop, rfl⟩ := eq_wrap_of_close hclose
    have hall := closes_disjunction hgs
    rw [dropWhile_closes_append_paren, List.dropWhile_eq_nil_iff.2 hall] at hdrop
    rw [takeWhile_closes_append_paren, List.takeWhile_eq_self_iff.2 hall]
    cases hdrop
    rfl

lemma complete_of_semicolon {gs : List Frame} (hgs : Frame.paren ∉ gs)
    (h : (State.hasOperand gs e).read limit ⟨.symbol .semicolon, offset⟩ = .ok state) :
    state = .complete (wrap gs e) := by
  rw [State.read, readOperator_eq_ok_iff] at h
  rcases h with ⟨op, _, _, hop, -, -⟩ | ⟨f, -, hclose, rfl⟩ | ⟨g, hs, f, ht, -, -⟩
  · cases hop
  · obtain ⟨-, rfl⟩ := eq_wrap_of_close hclose
    rw [List.takeWhile_eq_self_iff.2 (closes_disjunction hgs)]
  · cases ht

end Tokens

lemma exists_of_readAll_append {state state' : State} {ts us : List PlacedToken}
    (h : state.readAll limit (ts ++ us) = .ok state') :
    ∃ s, state.readAll limit ts = .ok s ∧ s.readAll limit us = .ok state' := by
  rw [readAll_append] at h
  rcases hts : state.readAll limit ts with _ | s <;> rw [hts] at h
  · cases h
  · exact ⟨s, rfl, h⟩

lemma exists_of_readAll_cons {state state' : State} {t : PlacedToken} {ts : List PlacedToken}
    (h : state.readAll limit (t :: ts) = .ok state') :
    ∃ s, state.read limit t = .ok s ∧ s.readAll limit ts = .ok state' := by
  rw [readAll_cons] at h
  rcases ht : state.read limit t with _ | s <;> rw [ht] at h
  · cases h
  · exact ⟨s, rfl, h⟩

lemma readAll_singleton (state : State) (t : PlacedToken) :
    state.readAll limit [t] = state.read limit t := by
  rw [readAll_cons]
  rcases state.read limit t with _ | s <;> rfl

/-! ### All tokens of an expression -/

/-- Reading tokens behind some frames, if it succeeds, leaves the unary operators of an
expression open.  And if closing them makes the expression again, its operands bind as they have
to, and it may stand behind the frames. -/
def Rereads (limit : Nat) (fs : List Frame) (us : List PlacedToken) (e : Expr) : Prop :=
  ∀ state, (State.wantsOperand fs).readAll limit us = .ok state →
    ∃ gs f, state = .hasOperand (gs ++ fs) f ∧ Opens e gs ∧
      ((wrap gs f).same e = true → e.Binds ∧ expectedLevel fs ≤ e.outerLevel)

lemma Rereads.unary {op : UnaryOp} {offset : Nat} {fs : List Frame} {us : List PlacedToken}
    {e : Expr} (h : Rereads limit (.unary op offset :: fs) us e) :
    Rereads limit fs (⟨.symbol op.mark, offset⟩ :: us) (.unary op e) := by
  intro state hstate
  obtain ⟨s, hread, hrest⟩ := exists_of_readAll_cons hstate
  obtain ⟨hfs, rfl⟩ := wantsOperand_of_unary hread
  obtain ⟨gs, f, rfl, hopens, hsame⟩ := h state hrest
  refine ⟨gs ++ [.unary op offset], f, by simp, .unary op offset hopens, fun hwrap => ?_⟩
  rw [wrap_append, wrap_cons, wrap_nil, Frame.around, Expr.same, Bool.and_eq_true] at hwrap
  obtain ⟨hbinds, hlevel⟩ := hsame hwrap.2
  exact ⟨⟨hlevel, hbinds⟩, hfs⟩

lemma Rereads.binary {op : BinaryOp} {o o' o'' : Nat} {fs : List Frame} {us vs : List PlacedToken}
    {l r : Expr} (hl : Rereads limit (.paren :: fs) us l)
    (hr : ∀ f gs, Rereads limit (.binary f op o' :: gs) vs r) :
    Rereads limit fs
      (⟨.symbol .openParen, o⟩
        :: ((us ++ ⟨.symbol op.mark, o'⟩ :: vs) ++ [⟨.symbol .closeParen, o''⟩]))
      (.binary op l r) := by
  intro state hstate
  -- one state after each part
  obtain ⟨s, hopen, hstate⟩ := exists_of_readAll_cons hstate
  obtain rfl := wantsOperand_of_openParen hopen
  obtain ⟨s, hoperands, hclose⟩ := exists_of_readAll_append hstate
  obtain ⟨sl, hleft, hright⟩ := exists_of_readAll_append hoperands
  obtain ⟨gs, f, rfl, hopens, hsame⟩ := hl sl hleft
  obtain ⟨sop, hop, hright⟩ := exists_of_readAll_cons hright
  obtain rfl := wantsOperand_of_binary hop
  rw [takeWhile_closes_append_paren, dropWhile_closes_append_paren] at hright
  obtain ⟨gs', f', rfl, hopens', hsame'⟩ := hr _ _ s hright
  -- everything up to the parenthesis is closed now
  rw [readAll_singleton] at hclose
  generalize hleft : wrap (gs.takeWhile (Frame.closes op.level)) f = left at hclose
  generalize hopen : gs.dropWhile (Frame.closes op.level) = still at hclose
  have hassoc : gs' ++ .binary left op o' :: (still ++ .paren :: fs)
      = (gs' ++ .binary left op o' :: still) ++ .paren :: fs := by simp
  have hparen : Frame.paren ∉ gs' ++ .binary left op o' :: still := by
    subst hopen
    simp only [List.mem_append, List.mem_cons, reduceCtorEq, false_or, not_or]
    exact ⟨hopens'.paren_notMem,
      fun hmem => hopens.paren_notMem ((List.dropWhile_suffix _).mem hmem)⟩
  rw [hassoc] at hclose
  refine ⟨[], _, hasOperand_of_closeParen hparen hclose, .binary op l r, fun hwrap => ?_⟩
  rw [wrap_nil, wrap_append, wrap_cons, Frame.around, ← hleft, ← hopen] at hwrap
  obtain ⟨hclosed, hsamel, hsamer⟩ := hopens.same_of_wrap hwrap
  obtain ⟨hbindsl, -⟩ := hsame hsamel
  obtain ⟨hbindsr, hlevelr⟩ := hsame' hsamer
  exact ⟨⟨⟨hopens.le_outerLevel hclosed, hbindsl⟩, hlevelr, hbindsr⟩, Level.le_operand _⟩

/-- The tokens of an expression, read behind any frames. -/
lemma rereads_tokens {e : Expr} {us : List PlacedToken}
    (hus : us.map PlacedToken.token = e.tokens) (fs : List Frame) : Rereads limit fs us e := by
  induction e generalizing us fs with
  | literal v =>
    obtain ⟨t, rfl, ht⟩ := List.map_eq_singleton_iff.1 hus
    cases t
    cases ht
    intro state hstate
    cases hstate
    exact ⟨[], .literal v, rfl, .literal v, fun _ => ⟨trivial, Level.le_operand _⟩⟩
  | path p =>
    obtain ⟨t, rfl, ht⟩ := List.map_eq_singleton_iff.1 hus
    cases t
    cases ht
    intro state hstate
    cases hstate
    exact ⟨[], .path p, rfl, .path p, fun _ => ⟨trivial, Level.le_operand _⟩⟩
  | unary op e ih =>
    obtain ⟨t, rest, rfl, ht, hrest⟩ := List.map_eq_cons_iff.1 hus
    cases t
    cases ht
    exact (ih hrest _).unary
  | binary op l r ihl ihr =>
    obtain ⟨t, rest, rfl, ht, hrest⟩ := List.map_eq_cons_iff.1 hus
    obtain ⟨operands, closing, rfl, hoperands, hclosing⟩ := List.map_eq_append_iff.1 hrest
    obtain ⟨t', rfl, ht'⟩ := List.map_eq_singleton_iff.1 hclosing
    obtain ⟨left, rest, rfl, hleft, hrest⟩ := List.map_eq_append_iff.1 hoperands
    obtain ⟨t'', right, rfl, ht'', hright⟩ := List.map_eq_cons_iff.1 hrest
    cases t
    cases ht
    cases t'
    cases ht'
    cases t''
    cases ht''
    exact (ihl hleft _).binary fun f gs => ihr hright _

/-- If the tokens of an expression and a semicolon are read as the same expression again, its
operands bind as they have to. -/
lemma binds_of_readAll {e e' : Expr} {tokens : List PlacedToken}
    (htokens : tokens.map PlacedToken.token = e.tokens ++ [.symbol .semicolon])
    (h : (State.wantsOperand []).readAll limit tokens = .ok (.complete e'))
    (hsame : e'.same e = true) : e.Binds := by
  obtain ⟨us, last, rfl, hus, hlast⟩ := List.map_eq_append_iff.1 htokens
  obtain ⟨t, rfl, ht⟩ := List.map_eq_singleton_iff.1 hlast
  cases t
  cases ht
  obtain ⟨s, hread, hsemicolon⟩ := exists_of_readAll_append h
  obtain ⟨gs, f, rfl, hopens, hbinds⟩ := rereads_tokens hus [] s hread
  rw [readAll_singleton, List.append_nil] at hsemicolon
  cases complete_of_semicolon hopens.paren_notMem hsemicolon
  exact (hbinds hsame).1

end Parsing

end GuardedMachine
