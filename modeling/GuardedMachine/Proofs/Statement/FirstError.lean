/-
# The first error of a statement

Tokens are viable if some statement starts with them.  The tokens that the parser has read are
viable, whatever its state: everything open can be closed (`Reads.viable`).  And if it fails for
any other reason than its limit, it fails at the same token with every greater limit, and so no
statement starts with the tokens up to that one (`not_viable_of_readAll`).

Both together say what each syntax error means for the tokens of a text
(`Expr.parse_error_locates`).
-/
import Mathlib.Control.Monad.Basic
import GuardedMachine.Proofs.Statement.Parsing
import GuardedMachine.Proofs.Statement.Scanning

namespace GuardedMachine

/-- Tokens from which the grammar derives a statement, however high and deeply nested. -/
def Derivable (ts : List Token) : Prop := ∃ n e, DerivesStatement n ts e

/-- Tokens that some derivable statement starts with. -/
def Viable (ts : List Token) : Prop := ∃ more, Derivable (ts ++ more)

lemma Derivable.viable {ts : List Token} (h : Derivable ts) : Viable ts :=
  ⟨[], (List.append_nil ts).symm ▸ h⟩

lemma Viable.of_append {ts us : List Token} (h : Viable (ts ++ us)) : Viable ts := by
  obtain ⟨more, hmore⟩ := h
  exact ⟨us ++ more, List.append_assoc ts us more ▸ hmore⟩

namespace Parsing

/-! ## Greater limits -/

section Limits

/-- A result that is another one, unless it says that something is too deep. -/
def UnlessTooDeep {α : Type} (r r' : Except Fault α) : Prop :=
  r = r' ∨ ∃ offset, r = .error ⟨offset, .tooDeep⟩

lemma UnlessTooDeep.refl {α : Type} (r : Except Fault α) : UnlessTooDeep r r := Or.inl rfl

lemma UnlessTooDeep.bind {α β : Type} {r r' : Except Fault α} {F F' : α → Except Fault β}
    (h : UnlessTooDeep r r') (hF : ∀ a, UnlessTooDeep (F a) (F' a)) :
    UnlessTooDeep (r.bind F) (r'.bind F') := by
  rcases h with rfl | ⟨offset, rfl⟩
  · cases r with
    | error fault => exact .refl _
    | ok a => exact hF a
  · exact Or.inr ⟨offset, rfl⟩

variable {limit limit' : Nat}

lemma checkHeight_of_limit_le (hle : limit ≤ limit') (offset : Nat) (e : Expr) :
    UnlessTooDeep (checkHeight limit offset e) (checkHeight limit' offset e) := by
  by_cases h : e.height ≤ limit
  · rw [checkHeight_of_le h, checkHeight_of_le (Nat.le_trans h hle)]
    exact .refl _
  · exact Or.inr ⟨offset, if_neg h⟩

lemma close_of_limit_le (hle : limit ≤ limit') (level : Level) (fs : List Frame) (e : Expr) :
    UnlessTooDeep (close limit level fs e) (close limit' level fs e) := by
  induction fs generalizing e with
  | nil => exact .refl _
  | cons frame rest ih =>
    rcases hcloses : frame.closes level with _ | _
    · rw [close_cons_of_not_closes hcloses, close_cons_of_not_closes hcloses]
      exact .refl _
    · obtain ⟨offset, -, hclose⟩ := close_cons_of_closes hcloses
      rw [hclose, hclose]
      exact (checkHeight_of_limit_le hle offset _).bind ih

lemma openFrame_of_limit_le (hle : limit ≤ limit') (frame : Frame) (offset : Nat)
    (fs : List Frame) :
    UnlessTooDeep (openFrame limit frame offset fs) (openFrame limit' frame offset fs) := by
  by_cases h : nesting fs < limit
  · rw [openFrame_of_lt h, openFrame_of_lt (Nat.lt_of_lt_of_le h hle)]
    exact .refl _
  · exact Or.inr ⟨offset, if_neg h⟩

lemma readOperand_of_limit_le (hle : limit ≤ limit') (fs : List Frame) (t : PlacedToken) :
    UnlessTooDeep (readOperand limit fs t) (readOperand limit' fs t) := by
  simp only [readOperand]
  split
  · exact .refl _
  · exact .refl _
  · exact openFrame_of_limit_le hle _ _ _
  · split
    · split
      · exact openFrame_of_limit_le hle _ _ _
      · exact .refl _
    · exact .refl _

lemma readOperator_of_limit_le (hle : limit ≤ limit') (fs : List Frame) (e : Expr)
    (t : PlacedToken) : UnlessTooDeep (readOperator limit fs e t) (readOperator limit' fs e t) := by
  simp only [readOperator]
  split
  · exact (close_of_limit_le hle _ fs e).bind fun _ => .refl _
  · exact (close_of_limit_le hle _ fs e).bind fun _ => .refl _

lemma read_of_limit_le (hle : limit ≤ limit') (state : State) (t : PlacedToken) :
    UnlessTooDeep (state.read limit t) (state.read limit' t) := by
  cases state with
  | wantsOperand fs => exact readOperand_of_limit_le hle fs t
  | hasOperand fs e => exact readOperator_of_limit_le hle fs e t
  | complete e => exact .refl _

/-- A greater limit does not change how tokens are read, unless something is too deep. -/
lemma readAll_of_limit_le (hle : limit ≤ limit') (state : State) (ts : List PlacedToken) :
    UnlessTooDeep (state.readAll limit ts) (state.readAll limit' ts) := by
  induction ts generalizing state with
  | nil => exact .refl _
  | cons t rest ih => exact (read_of_limit_le hle state t).bind ih

end Limits

/-- A derivable statement is read to its end, if the limit is great enough. -/
lemma Derivable.readAll {tokens : List PlacedToken} (h : Derivable (tokens.map PlacedToken.token))
    (limit : Nat) :
    ∃ limit' e, limit ≤ limit' ∧
      (State.wantsOperand []).readAll limit' tokens = .ok (.complete e) := by
  obtain ⟨n, e, hd⟩ := h
  refine ⟨max (max limit 1) (max n e.height), e, by omega, ?_⟩
  exact (readAll_eq_complete_iff (by omega)).2 ⟨n, hd, by omega, by omega⟩

/-- No statement starts with tokens at which the parser fails, unless something is too deep. -/
lemma not_viable_of_readAll {limit : Nat} {tokens : List PlacedToken} {fault : Fault}
    (h : (State.wantsOperand []).readAll limit tokens = .error fault)
    (hfault : fault.error ≠ .tooDeep) : ¬ Viable (tokens.map PlacedToken.token) := by
  rintro ⟨more, hmore⟩
  let rest := more.map fun t => (⟨t, 0⟩ : PlacedToken)
  have hrest : rest.map PlacedToken.token = more := by
    rw [List.map_map]
    exact List.map_id more
  rw [← hrest, ← List.map_append] at hmore
  obtain ⟨limit', e, hle, hcomplete⟩ := Derivable.readAll hmore limit
  -- the parser fails at the tokens in front, whatever follows them
  rcases readAll_of_limit_le hle (.wantsOperand []) tokens with heq | ⟨offset, htooDeep⟩
  · rw [readAll_append, ← heq, h] at hcomplete
    cases hcomplete
  · rw [h] at htooDeep
    cases htooDeep
    exact hfault rfl

/-! ## What has been read is viable -/

variable {limit : Nat}

/-- Open frames and an expression that may stand behind them start some expression. -/
lemma Spells.completes {fs : List Frame} {ts us : List Token} {level : Level} {n : Nat} {e : Expr}
    (hs : Spells limit fs ts) (hd : Derives level n us e) (hfs : expectedLevel fs ≤ level) :
    ∃ more k f, Derives .disjunction k (ts ++ (us ++ more)) f := by
  induction hs generalizing us level n e with
  | nil =>
    have hexpr : Derives .disjunction n us e := hd.of_le hfs
    exact ⟨[], n, e, by simpa using hexpr⟩
  | paren hs ih =>
    have hparen := Derives.paren (hd.of_le hfs)
    obtain ⟨more, k, f, hf⟩ := ih hparen (Level.le_operand _)
    exact ⟨.symbol .closeParen :: more, k, f, by simpa using hf⟩
  | unary offset hs hop hle ih =>
    obtain ⟨more, k, f, hf⟩ := ih (.unary hop (hd.of_le hfs)) hle
    exact ⟨more, k, f, by simpa using hf⟩
  | binary offset hs hop hle hleft _ ih =>
    obtain ⟨more, k, f, hf⟩ := ih (.binary hop hleft (hd.of_le hfs)) hle
    exact ⟨more, k, f, by simpa using hf⟩

lemma viable_of_derives {ts us more : List Token} {n : Nat} {e : Expr}
    (hd : Derives .disjunction n (ts ++ (us ++ more)) e) : Viable (ts ++ us) :=
  ⟨more ++ [.symbol .semicolon], n, e, ts ++ (us ++ more), by simp, hd⟩

/-- Whatever has been read, some statement starts with it. -/
lemma Reads.viable {state : State} {ts : List Token} (h : Reads limit state ts) : Viable ts := by
  cases h with
  | wantsOperand hs _ =>
    -- any operand will do
    obtain ⟨more, k, f, hf⟩ := hs.completes (.literal .null) (Level.le_operand _)
    exact (viable_of_derives hf).of_append
  | hasOperand hholds =>
    obtain ⟨hs, hd, hfs, -, -⟩ := hholds
    obtain ⟨more, k, f, hf⟩ := hs.completes hd hfs
    exact viable_of_derives hf
  | complete hd _ _ => exact Derivable.viable ⟨_, _, hd⟩

/-! ## The faults of the parser -/

section Faults

/-- A result whose fault, if it has one, satisfies a property. -/
def FailsOnly {α : Type} (P : Fault → Prop) (r : Except Fault α) : Prop :=
  ∀ fault, r = .error fault → P fault

variable {α β : Type} {P Q : Fault → Prop}

lemma FailsOnly.ok (a : α) : FailsOnly P (.ok a) := by
  intro fault h
  cases h

lemma FailsOnly.error {fault : Fault} (h : P fault) :
    FailsOnly P (.error fault : Except Fault α) := by
  rintro _ ⟨⟩
  exact h

lemma FailsOnly.bind {r : Except Fault α} {F : α → Except Fault β} (h : FailsOnly P r)
    (hF : ∀ a, FailsOnly P (F a)) : FailsOnly P (r.bind F) := by
  cases r with
  | error fault => exact .error (h fault rfl)
  | ok a => exact hF a

lemma FailsOnly.mono {r : Except Fault α} (h : FailsOnly P r) (hPQ : ∀ fault, P fault → Q fault) :
    FailsOnly Q r :=
  fun fault hr => hPQ fault (h fault hr)

lemma failsOnly_checkHeight (offset : Nat) (e : Expr) :
    FailsOnly (fun fault => fault.error = .tooDeep) (checkHeight limit offset e) := by
  rw [checkHeight]
  split
  · exact .ok _
  · exact .error rfl

lemma failsOnly_close (level : Level) (fs : List Frame) (e : Expr) :
    FailsOnly (fun fault => fault.error = .tooDeep) (close limit level fs e) := by
  induction fs generalizing e with
  | nil => exact .ok _
  | cons frame rest ih =>
    rcases hcloses : frame.closes level with _ | _
    · rw [close_cons_of_not_closes hcloses]
      exact .ok _
    · obtain ⟨offset, -, hclose⟩ := close_cons_of_closes hcloses
      rw [hclose]
      exact (failsOnly_checkHeight offset _).bind ih

lemma failsOnly_openFrame (frame : Frame) (offset : Nat) (fs : List Frame) :
    FailsOnly (fun fault => fault.error = .tooDeep) (openFrame limit frame offset fs) := by
  rw [openFrame]
  split
  · exact .ok _
  · exact .error rfl

/-- Where an operand comes next, a symbol that may open a frame can be wrong, and so can any other
token. -/
lemma FailsOnly.readOperand {fs : List Frame} {t : PlacedToken}
    (hopen : ∀ s frame, t.token = .symbol s → (s = .openParen ∨ ∃ op, s.unary? = some op) →
      FailsOnly P (openFrame limit frame t.offset fs))
    (hunexpected : P ⟨t.offset, .unexpectedToken .operand t.token⟩) :
    FailsOnly P (readOperand limit fs t) := by
  obtain ⟨token, offset⟩ := t
  simp only [Parsing.readOperand]
  split
  · exact .ok _
  · exact .ok _
  · exact hopen .openParen _ rfl (Or.inl rfl)
  · rename_i s _
    split
    · rename_i op hop
      split
      · exact hopen s _ rfl (Or.inr ⟨op, hop⟩)
      · exact .error hunexpected
    · exact .error hunexpected

/-- After an operand, what is closed can be wrong, and otherwise the token. -/
lemma FailsOnly.readOperator {fs : List Frame} {e : Expr} {t : PlacedToken}
    (hclose : ∀ level, FailsOnly P (close limit level fs e))
    (hunexpected : ∀ expected, P ⟨t.offset, .unexpectedToken expected t.token⟩) :
    FailsOnly P (readOperator limit fs e t) := by
  simp only [Parsing.readOperator]
  split
  · exact (hclose _).bind fun _ => .ok _
  · refine (hclose _).bind fun _ => ?_
    split
    · split
      · exact .ok _
      · exact .error (hunexpected _)
    · split
      · exact .ok _
      · exact .error (hunexpected _)

/-- How a token can be wrong after a state: something is too deep, the token cannot stand there,
or the statement was complete before it. -/
def FaultAt (state : State) (t : PlacedToken) (fault : Fault) : Prop :=
  fault.error = .tooDeep ∨
  (∃ expected, fault = ⟨t.offset, .unexpectedToken expected t.token⟩) ∨
  ((∃ e, state = .complete e) ∧ fault = ⟨t.offset, .trailingInput⟩)

lemma failsOnly_readOperand (fs : List Frame) (t : PlacedToken) :
    FailsOnly (FaultAt (.wantsOperand fs) t) (readOperand limit fs t) := by
  refine .readOperand (fun _ frame _ _ => ?_) (Or.inr (Or.inl ⟨_, rfl⟩))
  exact (failsOnly_openFrame frame t.offset fs).mono fun _ => Or.inl

lemma failsOnly_readOperator (fs : List Frame) (e : Expr) (t : PlacedToken) :
    FailsOnly (FaultAt (.hasOperand fs e) t) (readOperator limit fs e t) := by
  refine .readOperator (fun level => ?_) fun expected => Or.inr (Or.inl ⟨expected, rfl⟩)
  exact (failsOnly_close level fs e).mono fun _ => Or.inl

lemma failsOnly_read (state : State) (t : PlacedToken) :
    FailsOnly (FaultAt state t) (state.read limit t) := by
  cases state with
  | wantsOperand fs => exact failsOnly_readOperand fs t
  | hasOperand fs e => exact failsOnly_readOperator fs e t
  | complete e => exact .error (Or.inr (Or.inr ⟨⟨e, rfl⟩, rfl⟩))

/-- The parser fails at some token, in the state after the tokens in front of it. -/
lemma exists_faultAt_of_readAll {state : State} {tokens : List PlacedToken} {fault : Fault}
    (h : state.readAll limit tokens = .error fault) :
    ∃ before t after state', tokens = before ++ t :: after ∧
      state.readAll limit before = .ok state' ∧ state'.read limit t = .error fault ∧
        FaultAt state' t fault := by
  induction tokens generalizing state with
  | nil => cases h
  | cons t rest ih =>
    rw [readAll_cons] at h
    rcases hread : state.read limit t with _ | next <;> rw [hread] at h
    · cases h
      exact ⟨[], t, rest, state, rfl, rfl, hread, failsOnly_read state t _ hread⟩
    · obtain ⟨before, t', after, state', rfl, hbefore, hfault⟩ := ih h
      refine ⟨t :: before, t', after, state', rfl, ?_, hfault⟩
      rw [readAll_cons, hread]
      exact hbefore

end Faults

end Parsing

open Parsing

/-! ## Places of tokens -/

lemma byteLength_pos {cs : List Char} (h : cs ≠ []) : 0 < byteLength cs := by
  obtain ⟨c, cs, rfl⟩ := List.exists_cons_of_ne_nil h
  exact Nat.add_pos_left c.utf8Size_pos _

/-- Tokens are placed one after the other. -/
lemma Scans.pairwise_offset {offset : Nat} {cs : List Char} {ts : List PlacedToken}
    (h : Scans offset cs ts) :
    (∀ t ∈ ts, offset ≤ t.offset) ∧ (ts.map PlacedToken.offset).Pairwise (· < ·) := by
  induction h with
  | done => exact ⟨by simp, .nil⟩
  | @lexeme offset blanks l rest shape t ts _ hshaped _ _ _ ih =>
    obtain ⟨hle, hpairwise⟩ := ih
    have hpos := byteLength_pos hshaped.ne_nil
    rw [byteLength_append] at hle
    constructor
    · refine List.forall_mem_cons.2 ⟨Nat.le_add_right _ _, fun t' ht' => ?_⟩
      have := hle t' ht'
      omega
    · rw [List.map_cons, List.pairwise_cons]
      refine ⟨fun o ho => ?_, hpairwise⟩
      obtain ⟨t', ht', rfl⟩ := List.mem_map.1 ho
      have := hle t' ht'
      show offset + byteLength blanks < t'.offset
      omega

/-- A byte offset is that of the token with the given index, and of no other one. -/
def PlacedAt (tokens : List PlacedToken) (offset i : Nat) : Prop :=
  ∀ j, (tokens[j]?).map PlacedToken.offset = some offset ↔ j = i

lemma placedAt_of_scans {offset : Nat} {cs : List Char} {before after : List PlacedToken}
    {t : PlacedToken} (h : Scans offset cs (before ++ t :: after)) :
    PlacedAt (before ++ t :: after) t.offset before.length := by
  have hnodup : ((before ++ t :: after).map PlacedToken.offset).Nodup :=
    h.pairwise_offset.2.imp Nat.ne_of_lt
  intro j
  rw [← List.getElem?_map]
  constructor
  · intro hj
    obtain ⟨hlt, -⟩ := List.getElem?_eq_some_iff.1 hj
    refine (List.getElem?_inj hlt hnodup).1 (hj.trans ?_)
    simp
  · rintro rfl
    simp

/-! ## The meaning of the syntax errors -/

/-- What a syntax error says about the tokens of the text. -/
def Fault.Locates (fault : Fault) (tokens : List PlacedToken) : Prop :=
  let ts := tokens.map PlacedToken.token
  match fault.error with
  | .unexpectedToken _ found => ∃ i, PlacedAt tokens fault.offset i ∧ ts[i]? = some found ∧
      Viable (ts.take i) ∧ ¬ Viable (ts.take (i + 1))
  | .trailingInput => ∃ i, PlacedAt tokens fault.offset i ∧ Derivable (ts.take i)
  | .missingTerminator => Derivable (ts ++ [.symbol .semicolon])
  | .unexpectedEnd _ => Viable ts ∧ ¬ Derivable (ts ++ [.symbol .semicolon])
  | .tooDeep => True
  | _ => False

lemma ofTokens_eq_bind (length : Nat) (tokens : List PlacedToken) :
    Expr.ofTokens length tokens
      = ((State.wantsOperand []).readAll maxDepth tokens).bind fun state =>
          state.finish maxDepth length := rfl

lemma Expr.parse_eq_of_tokenize {text : String} {tokens : List PlacedToken}
    (h : tokenize 0 text.toList = .ok tokens) :
    Expr.parse text
      = (Expr.ofTokens (byteLength text.toList) tokens).mapError fun fault => ⟨text, fault⟩ := by
  rw [parse, ofChars, h]
  rfl

lemma reads_of_readAll {tokens : List PlacedToken} {state : State}
    (h : (State.wantsOperand []).readAll maxDepth tokens = .ok state) :
    Reads maxDepth state (tokens.map PlacedToken.token) := by
  have hstart : Reads maxDepth (.wantsOperand []) [] := .wantsOperand .nil (Nat.zero_le _)
  exact hstart.readAll (by decide) h

/-- The parser fails at a token. -/
lemma locates_of_readAll {cs : List Char} {tokens : List PlacedToken} {fault : Fault}
    (hscans : Scans 0 cs tokens)
    (h : (State.wantsOperand []).readAll maxDepth tokens = .error fault) :
    fault.Locates tokens := by
  obtain ⟨before, t, after, state, rfl, hbefore, hread, hfault⟩ := exists_faultAt_of_readAll h
  have hreads := reads_of_readAll hbefore
  have htake : ((before ++ t :: after).map PlacedToken.token).take before.length
      = before.map PlacedToken.token := by simp
  rcases hfault with htooDeep | ⟨expected, rfl⟩ | ⟨⟨e, rfl⟩, rfl⟩
  · simp only [Fault.Locates, htooDeep]
  · refine ⟨before.length, placedAt_of_scans hscans, by simp, ?_, ?_⟩
    · rw [htake]
      exact hreads.viable
    · -- with the token, nothing can be derived any more
      have hfail : (State.wantsOperand []).readAll maxDepth (before ++ [t])
          = .error ⟨t.offset, .unexpectedToken expected t.token⟩ := by
        simp only [readAll_append, readAll_cons, hbefore, hread, Except.bind]
      have htake' : ((before ++ t :: after).map PlacedToken.token).take (before.length + 1)
          = (before ++ [t]).map PlacedToken.token := by
        rw [List.append_cons, List.map_append]
        exact List.take_left' (by simp)
      rw [htake']
      exact not_viable_of_readAll hfail (by simp)
  · refine ⟨before.length, placedAt_of_scans hscans, ?_⟩
    rw [htake]
    cases hreads with
    | complete hd _ _ => exact ⟨_, _, hd⟩

/-- The parser fails at the end. -/
lemma locates_of_finish {tokens : List PlacedToken} {state : State} {length : Nat} {fault : Fault}
    (hstate : (State.wantsOperand []).readAll maxDepth tokens = .ok state)
    (h : state.finish maxDepth length = .error fault) : fault.Locates tokens := by
  -- what a semicolon would do decides
  let semicolon : PlacedToken := ⟨.symbol .semicolon, length⟩
  have hreadAll : (State.wantsOperand []).readAll maxDepth (tokens ++ [semicolon])
      = (state.read maxDepth semicolon).bind .ok := by
    rw [readAll_append, hstate]
    rfl
  have htokens : (tokens ++ [semicolon]).map PlacedToken.token
      = tokens.map PlacedToken.token ++ [.symbol .semicolon] := by simp [semicolon]
  have viable := (reads_of_readAll hstate).viable
  have not_derivable {expected : Expectation}
      (hread : state.read maxDepth semicolon
        = .error ⟨length, .unexpectedToken expected semicolon.token⟩) :
      ¬ Derivable (tokens.map PlacedToken.token ++ [.symbol .semicolon]) := by
    rw [hread] at hreadAll
    rw [← htokens]
    exact fun hd => not_viable_of_readAll hreadAll (by simp) hd.viable
  cases state with
  | wantsOperand fs =>
    cases h
    exact ⟨viable, not_derivable rfl⟩
  | hasOperand fs e =>
    rw [State.finish] at h
    rcases hclose : close maxDepth .disjunction fs e with fault' | ⟨_ | ⟨g, gs⟩, f⟩ <;>
      rw [hclose] at h <;> cases h
    · simp only [Fault.Locates, failsOnly_close _ _ _ _ hclose]
    · -- only the semicolon is missing
      have hread : (State.hasOperand fs e).read maxDepth semicolon = .ok (.complete f) := by
        rw [State.read, readOperator_eq_ok_iff]
        exact Or.inr (Or.inl ⟨f, rfl, hclose, rfl⟩)
      rw [hread] at hreadAll
      obtain ⟨n, hd, -, -⟩ := (readAll_eq_complete_iff (by decide)).1 hreadAll
      rw [htokens] at hd
      exact ⟨n, f, hd⟩
    · -- a parenthesis is open
      have hread : (State.hasOperand fs e).read maxDepth semicolon
          = .error ⟨length, .unexpectedToken .closeParen semicolon.token⟩ := by
        simp only [State.read, readOperator, semicolon, Token.binary?, Symbol.binary?, hclose]
        rfl
      exact ⟨viable, not_derivable hread⟩
  | complete e => cases h

lemma tooDeep_of_derivable {length : Nat} {tokens : List PlacedToken} {fault : Fault}
    (hd : Derivable (tokens.map PlacedToken.token))
    (h : Expr.ofTokens length tokens = .error fault) : fault.error = .tooDeep := by
  obtain ⟨limit', e, hle, hcomplete⟩ := Derivable.readAll hd maxDepth
  rw [ofTokens_eq_bind] at h
  rcases readAll_of_limit_le hle (.wantsOperand []) tokens with heq | ⟨offset, htooDeep⟩
  · rw [heq, hcomplete] at h
    cases h
  · rw [htooDeep] at h
    cases h
    rfl

/-- **Syntax errors point at the first token that cannot be right.**  Of a text that has tokens,
the error of the parser says which of them start a statement and which do not, and only its
limits make it reject a statement of the grammar. -/
theorem Expr.parse_error_locates (text : String) (tokens : List PlacedToken) (err : CompileError)
    (htokens : tokenize 0 text.toList = .ok tokens) (herror : Expr.parse text = .error err) :
    err.fault.Locates tokens ∧
      (Derivable (tokens.map PlacedToken.token) → err.fault.error = .tooDeep) := by
  rw [parse_eq_of_tokenize htokens] at herror
  rcases hfault : Expr.ofTokens (byteLength text.toList) tokens with fault | e <;>
    rw [hfault] at herror <;> cases herror
  refine ⟨?_, fun hd => tooDeep_of_derivable hd hfault⟩
  rw [ofTokens_eq_bind] at hfault
  rcases hstate : (State.wantsOperand []).readAll maxDepth tokens with fault' | state <;>
    rw [hstate] at hfault
  · cases hfault
    exact locates_of_readAll (scans_of_tokenize htokens) hstate
  · exact locates_of_finish hstate hfault

/-- A negation is no operand of a comparison, so no statement starts with `1 < !`. -/
theorem Expr.parse_error_locates_negation :
    let text := "1 < !true;"
    let tokens : List PlacedToken :=
      [⟨.literal (.decimal ⟨false, 1, 0, by decide, by decide⟩), 0⟩, ⟨.symbol .less, 2⟩,
        ⟨.symbol .bang, 4⟩, ⟨.literal (.bool true), 5⟩, ⟨.symbol .semicolon, 9⟩]
    let err : CompileError := ⟨text, ⟨4, .unexpectedToken .operand (.symbol .bang)⟩⟩
    tokenize 0 text.toList = .ok tokens ∧ Expr.parse text = .error err ∧
      err.fault.Locates tokens ∧
        (Derivable (tokens.map PlacedToken.token) → err.fault.error = .tooDeep) := by
  intro text tokens err
  have htokens : tokenize 0 text.toList = .ok tokens := by decide +kernel
  have herror : Expr.parse text = .error err := by decide +kernel
  exact ⟨htokens, herror, parse_error_locates text tokens err htokens herror⟩

end GuardedMachine
