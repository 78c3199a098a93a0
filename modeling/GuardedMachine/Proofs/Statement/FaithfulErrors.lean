/-
# Errors are faithful to the text

A syntax error says where it is and what is there.  Both are read off the text: the offset is one
between two characters, or the end, and what the error names stands there (`Fault.Faithful`).

The tokenizer fails at the start of a lexeme, or at a character within a string
(`lexical_of_tokenize`); what its error quotes is the last run of characters that it has taken out
of the text (`getLast?_takenRuns`).  The parser fails at a token or at the end.  Only a statement
that is too deep is reported at a token that has been read before, and that is so because every
operator that is still open carries the offset of its token (`Placed`).
-/
import GuardedMachine.Proofs.Statement.Boundaries
import GuardedMachine.Proofs.Statement.Runs

namespace GuardedMachine

/-! ## Errors of the tokenizer -/

/-- What a lexical error says of the characters at its place. -/
def SyntaxError.Names (part : List Char) : SyntaxError → Prop
  | .unexpectedChar c => part = [c]
  | .unterminatedString => part = ['"']
  | .malformedPath _ => part = ['#'] ∨ part = ['$']
  | .invalidNumber s | .unknownIdentifier s => part ≠ [] ∧ part = s.toList
  | _ => False

/-- `fault.Lexical offset cs`: the error is a lexical one, and the text `cs`, which starts at the
byte offset, has what it names at its place. -/
def Fault.Lexical (offset : ℕ) (cs : List Char) (fault : Fault) : Prop :=
  ∃ before part after, cs = before ++ (part ++ after) ∧
    fault.offset = offset + byteLength before ∧ fault.error.Names part

lemma Fault.Lexical.append {offset : ℕ} {before cs : List Char} {fault : Fault}
    (h : fault.Lexical (offset + byteLength before) cs) : fault.Lexical offset (before ++ cs) := by
  obtain ⟨before', part, after, rfl, hoffset, hnames⟩ := h
  refine ⟨before ++ before', part, after, by simp, ?_, hnames⟩
  rw [hoffset, byteLength_append, Nat.add_assoc]

/-- An error at the first character. -/
lemma Fault.Lexical.start {offset : ℕ} {part cs : List Char} {error : SyntaxError}
    (hnames : error.Names part) (hpart : part <+: cs) :
    Fault.Lexical offset cs ⟨offset, error⟩ := by
  obtain ⟨after, rfl⟩ := hpart
  exact ⟨[], part, after, rfl, rfl, hnames⟩

namespace Lexeme

variable {offset : ℕ} {cs : List Char} {fault : Fault}

lemma lexical_of_path {scope : Scope} (h : path scope offset cs = .error fault) :
    fault.Lexical offset (scope.sigil :: cs) := by
  have hstart (error : PathFault) :
      Fault.Lexical offset (scope.sigil :: cs) ⟨offset, .malformedPath error⟩ := by
    have hnames : (SyntaxError.malformedPath error).Names [scope.sigil] := by
      cases scope
      · exact Or.inl rfl
      · exact Or.inr rfl
    exact .start hnames ⟨cs, rfl⟩
  simp only [path] at h
  split at h
  · split at h
    · cases h
      exact hstart _
    · cases h
  · cases h
    exact hstart _

/-- The contents of a string end with the text, or at a character that may not be escaped. -/
lemma error_of_stringBody {start : ℕ} (h : stringBody start offset cs = .error fault) :
    fault = ⟨start, .unterminatedString⟩ ∨ ∃ before c after, cs = before ++ c :: after ∧
      fault = ⟨offset + byteLength before, .unexpectedChar c⟩ := by
  fun_induction stringBody start offset cs with
  | case1 =>
    cases h
    exact Or.inl rfl
  | case2 => cases h
  | case3 =>
    cases h
    exact Or.inl rfl
  | case4 offset c cs hc ih =>
    rcases ih (eq_error_of_map h) with rfl | ⟨before, d, after, rfl, rfl⟩
    · exact Or.inl rfl
    · -- the backslash and what is escaped take one byte each
      have hbytes : byteLength ('\\' :: c :: before) = 2 + byteLength before := by
        rcases hc with rfl | rfl
        · exact (Nat.add_assoc 1 1 _).symm
        · exact (Nat.add_assoc 1 1 _).symm
      exact Or.inr ⟨'\\' :: c :: before, d, after, rfl, by rw [hbytes, Nat.add_assoc]⟩
  | case5 offset c cs hc =>
    cases h
    exact Or.inr ⟨['\\'], c, cs, rfl, rfl⟩
  | case6 offset c cs _ _ _ ih =>
    rcases ih (eq_error_of_map h) with rfl | ⟨before, d, after, rfl, rfl⟩
    · exact Or.inl rfl
    · exact Or.inr ⟨c :: before, d, after, rfl, by rw [byteLength, Nat.add_assoc]⟩

lemma lexical_of_string (h : string offset cs = .error fault) :
    fault.Lexical offset ('"' :: cs) := by
  rw [string] at h
  rcases error_of_stringBody (eq_error_of_map h) with rfl | ⟨before, c, after, rfl, rfl⟩
  · exact .start rfl ⟨cs, rfl⟩
  · exact ⟨'"' :: before, [c], after, rfl, Nat.add_assoc offset 1 _, rfl⟩

/-- The characters that the error of a number shows are those at its start. -/
lemma lexical_of_number {c : Char} (hc : c.isDigit = true)
    (h : number offset (c :: cs) = .error fault) : fault.Lexical offset (c :: cs) := by
  have hsplit : (c :: cs).takeWhile Char.isDigit ++ (c :: cs).dropWhile Char.isDigit = c :: cs :=
    List.takeWhile_append_dropWhile
  have hwhole : (c :: cs).takeWhile Char.isDigit ≠ [] := by simp [hc]
  have hstart {written : List Char} (hne : written ≠ []) (hwritten : written <+: c :: cs) :
      Fault.Lexical offset (c :: cs) ⟨offset, .invalidNumber (String.ofList written)⟩ :=
    .start ⟨hne, String.toList_ofList.symm⟩ hwritten
  simp only [number] at h
  split at h
  · rename_i after hafter
    have hfraction : (c :: cs).takeWhile Char.isDigit ++ '.' :: after.takeWhile Char.isDigit
        <+: c :: cs := by
      refine ⟨after.dropWhile Char.isDigit, ?_⟩
      rw [List.append_assoc, List.cons_append, List.takeWhile_append_dropWhile, ← hafter, hsplit]
    split at h
    · cases h
      exact hstart (by simp) hfraction
    · split at h
      · cases h
      · cases h
        exact hstart (by simp) hfraction
  · split at h
    · cases h
    · cases h
      exact hstart hwhole (List.takeWhile_prefix _)

lemma lexical_of_word {c : Char} (hc : isWordStart c = true)
    (h : word offset (c :: cs) = .error fault) : fault.Lexical offset (c :: cs) := by
  have hchars : (c :: cs).takeWhile isWordChar ≠ [] := by simp [isWordChar_of_isWordStart hc]
  simp only [word] at h
  split at h
  · cases h
  · cases h
    exact .start ⟨hchars, String.toList_ofList.symm⟩ (List.takeWhile_prefix _)

lemma lexical_of_symbol {c : Char} (h : symbol offset c cs = .error fault) :
    fault.Lexical offset (c :: cs) := by
  rw [symbol] at h
  split at h
  · cases h
  · cases h
    exact .start rfl ⟨cs, rfl⟩

lemma lexical_of_first {c : Char} (h : first offset c cs = .error fault) :
    fault.Lexical offset (c :: cs) := by
  simp only [first] at h
  split at h
  · rename_i hc
    exact hc ▸ lexical_of_path h
  split at h
  · rename_i hc
    exact hc ▸ lexical_of_path h
  split at h
  · rename_i hc
    exact hc ▸ lexical_of_string h
  split at h
  · rename_i hc
    exact lexical_of_number hc h
  split at h
  · rename_i hc
    exact lexical_of_word hc h
  · exact lexical_of_symbol h

end Lexeme

open Lexeme

/-- The tokenizer fails at the first lexeme that cannot be read, and the lexemes and the white
space in front of it only move the place. -/
lemma lexical_of_tokenize {offset : ℕ} {cs : List Char} {fault : Fault}
    (h : tokenize offset cs = .error fault) : fault.Lexical offset cs := by
  induction offset, cs using tokenize_induction with
  | done offset =>
    rw [tokenize_nil] at h
    cases h
  | blank offset c cs hc ih =>
    rw [tokenize_blank hc] at h
    exact @Fault.Lexical.append _ [c] _ _ (ih h)
  | fault offset c cs err hc hfirst =>
    rw [tokenize_of_first_error hc hfirst] at h
    cases h
    exact lexical_of_first hfirst
  | lexeme offset c cs l hc hfirst ih =>
    rw [tokenize_of_first_ok hc hfirst] at h
    rw [← (append_eq_of_first hfirst).1]
    exact (ih (eq_error_of_map h)).append

/-! ## Places of operators -/

/-- The symbols that an expression gets deeper with. -/
def Symbol.Deepens (s : Symbol) : Prop :=
  s = .openParen ∨ s = .bang ∨ s = .minus ∨ ∃ op, s.binary? = some op

lemma Symbol.deepens_of_unary? {s : Symbol} {op : UnaryOp} (h : s.unary? = some op) :
    s.Deepens := by
  cases s <;> cases h
  · exact Or.inr (Or.inl rfl)
  · exact Or.inr (Or.inr (Or.inl rfl))

/-- One of the tokens is such a symbol, and it starts at the byte offset. -/
def DeepensAt (tokens : List PlacedToken) (offset : ℕ) : Prop :=
  ∃ s : Symbol, ⟨.symbol s, offset⟩ ∈ tokens ∧ s.Deepens

namespace Parsing

/-- The frames that are open in a state. -/
def State.frames : State → List Frame
  | .wantsOperand fs => fs
  | .hasOperand fs _ => fs
  | .complete _ => []

/-- The operators of the open frames stand where their offsets say. -/
def Placed (tokens : List PlacedToken) (fs : List Frame) : Prop :=
  ∀ frame ∈ fs, ∀ offset ∈ frame.offset?, DeepensAt tokens offset

/-- An error that says that something is too deep is at the place of an operator. -/
def BlamesOperator (tokens : List PlacedToken) (fault : Fault) : Prop :=
  fault.error = .tooDeep → DeepensAt tokens fault.offset

variable {limit : ℕ} {tokens : List PlacedToken} {fs gs : List Frame}

lemma Placed.of_suffix (h : Placed tokens fs) (hsuffix : gs <:+ fs) : Placed tokens gs :=
  fun frame hframe => h frame (hsuffix.mem hframe)

lemma Placed.cons {frame : Frame} (hframe : ∀ offset ∈ frame.offset?, DeepensAt tokens offset)
    (h : Placed tokens fs) : Placed tokens (frame :: fs) :=
  List.forall_mem_cons.2 ⟨hframe, h⟩

/-- What stays open after closing is the outer part of what was open. -/
lemma suffix_of_close {level : Level} {e f : Expr} (h : close limit level fs e = .ok (gs, f)) :
    gs <:+ fs := by
  induction fs generalizing e with
  | nil =>
    cases h
    exact List.suffix_refl _
  | cons frame rest ih =>
    rcases hcloses : frame.closes level with _ | _
    · rw [close_cons_of_not_closes hcloses] at h
      cases h
      exact List.suffix_refl _
    · obtain ⟨offset, -, hclose⟩ := close_cons_of_closes hcloses
      rw [hclose] at h
      obtain ⟨-, h⟩ := eq_ok_of_checkHeight_bind h
      exact (ih h).trans (List.suffix_cons _ _)

lemma blamesOperator_of_close (h : Placed tokens fs) (level : Level) (e : Expr) :
    FailsOnly (BlamesOperator tokens) (close limit level fs e) := by
  induction fs generalizing e with
  | nil => exact .ok _
  | cons frame rest ih =>
    rcases hcloses : frame.closes level with _ | _
    · rw [close_cons_of_not_closes hcloses]
      exact .ok _
    · obtain ⟨offset, hoffset, hclose⟩ := close_cons_of_closes hcloses
      have hframe : DeepensAt tokens offset := h frame List.mem_cons_self offset hoffset
      have hcheck (e : Expr) : FailsOnly (BlamesOperator tokens) (checkHeight limit offset e) := by
        rw [checkHeight]
        split
        · exact .ok _
        · exact .error fun _ => hframe
      rw [hclose]
      exact (hcheck _).bind (ih (h.of_suffix (List.suffix_cons _ _)))

lemma blamesOperator_of_openFrame {offset : ℕ} (h : DeepensAt tokens offset) (frame : Frame)
    (fs : List Frame) : FailsOnly (BlamesOperator tokens) (openFrame limit frame offset fs) := by
  rw [openFrame]
  split
  · exact .ok _
  · exact .error fun _ => h

lemma blamesOperator_of_read {state : State} {t : PlacedToken} (h : Placed tokens state.frames)
    (ht : t ∈ tokens) : FailsOnly (BlamesOperator tokens) (state.read limit t) := by
  obtain ⟨token, offset⟩ := t
  have otherwise {error : SyntaxError} (h : error ≠ .tooDeep) :
      BlamesOperator tokens ⟨offset, error⟩ := fun htooDeep => absurd htooDeep h
  cases state with
  | wantsOperand fs =>
    -- only a parenthesis or a unary operator opens a frame
    refine .readOperand (fun s frame hs hopens => ?_) (otherwise (by simp))
    obtain rfl : token = .symbol s := hs
    have hdeepens : s.Deepens := hopens.elim Or.inl fun ⟨_, hop⟩ => Symbol.deepens_of_unary? hop
    exact blamesOperator_of_openFrame ⟨s, ht, hdeepens⟩ frame fs
  | hasOperand fs e =>
    exact .readOperator (fun level => blamesOperator_of_close h level e)
      fun expected => otherwise (by simp)
  | complete e => exact .error (otherwise (by simp))

/-- A token that is read opens at most one frame, at its own place. -/
lemma Placed.read {state state' : State} {t : PlacedToken} (h : Placed tokens state.frames)
    (ht : t ∈ tokens) (hread : state.read limit t = .ok state') : Placed tokens state'.frames := by
  obtain ⟨token, offset⟩ := t
  cases state with
  | wantsOperand fs =>
    rcases token with v | p | s
    · cases hread
      exact h
    · cases hread
      exact h
    · rcases openFrame_of_readOperand hread with ⟨rfl, hopen⟩ | ⟨op, hop, -, hopen⟩
      · obtain ⟨-, rfl⟩ := eq_ok_of_openFrame hopen
        refine Placed.cons ?_ h
        rintro _ ⟨⟩
      · obtain ⟨-, rfl⟩ := eq_ok_of_openFrame hopen
        refine Placed.cons ?_ h
        rintro _ ⟨⟩
        exact ⟨s, ht, Symbol.deepens_of_unary? (precedes_iff.1 hop).1⟩
  | hasOperand fs e =>
    rcases readOperator_eq_ok_iff.1 hread with ⟨op, gs, f, hop, hclose, rfl⟩ |
      ⟨f, -, -, rfl⟩ | ⟨g, gs, f, -, hclose, rfl⟩
    · refine Placed.cons ?_ (h.of_suffix (suffix_of_close hclose))
      rintro _ ⟨⟩
      obtain ⟨s, rfl, hjoins⟩ := exists_joins_of_binary? hop
      exact ⟨s, ht, Or.inr (Or.inr (Or.inr ⟨op, (joins_iff.1 hjoins).1⟩))⟩
    · exact fun _ hframe => absurd hframe List.not_mem_nil
    · exact h.of_suffix ((List.suffix_cons g gs).trans (suffix_of_close hclose))
  | complete e => cases hread

lemma Placed.readAll {state state' : State} {ts : List PlacedToken}
    (h : Placed tokens state.frames) (hts : ∀ t ∈ ts, t ∈ tokens)
    (hread : state.readAll limit ts = .ok state') : Placed tokens state'.frames := by
  induction ts generalizing state with
  | nil =>
    cases hread
    exact h
  | cons t rest ih =>
    obtain ⟨ht, hrest⟩ := List.forall_mem_cons.1 hts
    rw [readAll_cons] at hread
    rcases hnext : state.read limit t with _ | next <;> rw [hnext] at hread
    · cases hread
    · exact ih (h.read ht hnext) hrest hread

/-- Whatever tokens have been read, the open operators are among them. -/
lemma placed_of_readAll {state : State} {ts : List PlacedToken} (hts : ∀ t ∈ ts, t ∈ tokens)
    (h : (State.wantsOperand []).readAll limit ts = .ok state) : Placed tokens state.frames :=
  Placed.readAll (fun _ hframe => absurd hframe List.not_mem_nil) hts h

end Parsing

open Parsing

/-! ## Faithful errors -/

/-- What an error says of a text is so: what it names is there, at its place. -/
def Fault.Faithful (text : String) (fault : Fault) : Prop :=
  match fault.error with
  | .unexpectedChar c => Text.HasAt text fault.offset (String.singleton c)
  | .unterminatedString => Text.HasAt text fault.offset "\""
  | .malformedPath _ => Text.HasAt text fault.offset "#" ∨ Text.HasAt text fault.offset "$"
  | .invalidNumber s | .unknownIdentifier s => s ≠ "" ∧ Text.HasAt text fault.offset s
  | .unexpectedToken expected found => ∃ tokens, tokenize 0 text.toList = .ok tokens ∧
      ⟨found, fault.offset⟩ ∈ tokens ∧
        fault.error.message = "expected " ++ expected.message ++ ", found " ++ found.toText
  | .trailingInput => ∃ before offset t after,
      tokenize 0 text.toList = .ok (before ++ ⟨.symbol .semicolon, offset⟩ :: t :: after) ∧
        t.offset = fault.offset
  | .tooDeep => ∃ tokens, tokenize 0 text.toList = .ok tokens ∧ DeepensAt tokens fault.offset
  | .unexpectedEnd _ | .missingTerminator => fault.offset = text.utf8ByteSize

/-- A lexical error is one of the characters that it names. -/
lemma Fault.Lexical.faithful {text : String} {fault : Fault} (h : fault.Lexical 0 text.toList) :
    fault.Faithful text := by
  obtain ⟨before, part, after, htext, hoffset, hnames⟩ := h
  rw [Nat.zero_add] at hoffset
  have hasAt {s : String} (hs : part = s.toList) : Text.HasAt text fault.offset s := by
    rw [hoffset]
    rw [hs] at htext
    exact Text.hasAt_of_toList htext
  obtain ⟨offset, error⟩ := fault
  cases error with
  | unexpectedChar c => exact hasAt (hnames.trans (String.toList_singleton c).symm)
  | unterminatedString => exact hasAt hnames
  | malformedPath => exact hnames.imp hasAt hasAt
  | invalidNumber | unknownIdentifier =>
    obtain ⟨hne, hs⟩ := hnames
    refine ⟨?_, hasAt hs⟩
    rintro rfl
    exact hne hs
  | _ => exact hnames.elim

lemma faithful_of_tooDeep {text : String} {tokens : List PlacedToken} {fault : Fault}
    (htokens : tokenize 0 text.toList = .ok tokens) (hblames : BlamesOperator tokens fault)
    (htooDeep : fault.error = .tooDeep) : fault.Faithful text := by
  simp only [Fault.Faithful, htooDeep]
  exact ⟨tokens, htokens, hblames htooDeep⟩

/-- The parser fails at a token, or for a token that it has read before. -/
lemma faithful_of_readAll {text : String} {tokens : List PlacedToken} {fault : Fault}
    (htokens : tokenize 0 text.toList = .ok tokens)
    (h : (State.wantsOperand []).readAll maxDepth tokens = .error fault) :
    fault.Faithful text := by
  obtain ⟨before, t, after, state, rfl, hbefore, hread, hfault⟩ := exists_faultAt_of_readAll h
  rcases hfault with htooDeep | ⟨expected, rfl⟩ | ⟨⟨e, rfl⟩, rfl⟩
  · have hplaced : Placed (before ++ t :: after) state.frames :=
      placed_of_readAll (fun u hu => List.mem_append_left _ hu) hbefore
    have hblames := blamesOperator_of_read hplaced (by simp) fault hread
    exact faithful_of_tooDeep htokens hblames htooDeep
  · exact ⟨_, htokens, by simp, rfl⟩
  · -- what is complete ends with a semicolon
    cases reads_of_readAll hbefore with
    | complete hd _ _ =>
      obtain ⟨us, hus, -⟩ := hd
      obtain ⟨vs, last, rfl, -, hlast⟩ := List.map_eq_append_iff.1 hus
      obtain ⟨⟨token, offset⟩, rfl, htoken⟩ := List.map_eq_singleton_iff.1 hlast
      obtain rfl : token = .symbol .semicolon := htoken
      exact ⟨vs, offset, t, after, by simpa using htokens, rfl⟩

/-- At its end, a text is at fault where it ends, or for a token that has been read before. -/
lemma faithful_of_finish {text : String} {tokens : List PlacedToken} {state : State}
    {fault : Fault} (htokens : tokenize 0 text.toList = .ok tokens)
    (hstate : (State.wantsOperand []).readAll maxDepth tokens = .ok state)
    (h : state.finish maxDepth (byteLength text.toList) = .error fault) :
    fault.Faithful text := by
  have hlength := byteLength_toList text
  cases state with
  | wantsOperand fs =>
    cases h
    exact hlength
  | hasOperand fs e =>
    rw [State.finish] at h
    rcases hclose : close maxDepth .disjunction fs e with fault' | ⟨_ | ⟨g, gs⟩, f⟩ <;>
      rw [hclose] at h <;> cases h
    · have hplaced : Placed tokens fs := placed_of_readAll (fun _ ht => ht) hstate
      exact faithful_of_tooDeep htokens (blamesOperator_of_close hplaced _ _ _ hclose)
        (failsOnly_close _ _ _ _ hclose)
    · exact hlength
    · exact hlength
  | complete e => cases h

/-- Every error of a statement is faithful to its text. -/
lemma faithful_of_ofChars {text : String} {fault : Fault}
    (h : Expr.ofChars text.toList = .error fault) : fault.Faithful text := by
  rw [Expr.ofChars] at h
  rcases htokens : tokenize 0 text.toList with fault' | tokens <;> rw [htokens] at h
  · cases h
    exact (lexical_of_tokenize htokens).faithful
  · replace h : Expr.ofTokens (byteLength text.toList) tokens = .error fault := h
    rw [ofTokens_eq_bind] at h
    rcases hstate : (State.wantsOperand []).readAll maxDepth tokens with fault' | state <;>
      rw [hstate] at h
    · cases h
      exact faithful_of_readAll htokens hstate
    · exact faithful_of_finish htokens hstate h

/-- A token stands where it is placed. -/
lemma hasAt_of_mem_tokens {text : String} {tokens : List PlacedToken} {t : PlacedToken}
    (htokens : tokenize 0 text.toList = .ok tokens) (ht : t ∈ tokens) :
    ∃ part, Text.HasAt text t.offset part := by
  obtain ⟨before, l, rest, -, htext, hoffset, -⟩ := (scans_of_tokenize htokens).boundary_of_mem ht
  rw [Nat.zero_add] at hoffset
  refine ⟨String.ofList l, hoffset ▸ @Text.hasAt_of_toList _ _ before rest ?_⟩
  rw [htext, String.toList_ofList]

/-- A faithful error is at a place in the text. -/
lemma Fault.Faithful.exists_hasAt {text : String} {fault : Fault} (h : fault.Faithful text) :
    ∃ part, Text.HasAt text fault.offset part := by
  obtain ⟨offset, error⟩ := fault
  have hend (hoffset : offset = text.utf8ByteSize) : ∃ part, Text.HasAt text offset part :=
    ⟨"", text, "", by simp, hoffset.symm⟩
  cases error with
  | unexpectedChar c => exact ⟨_, h⟩
  | unterminatedString => exact ⟨_, h⟩
  | malformedPath => exact h.elim (fun h => ⟨_, h⟩) fun h => ⟨_, h⟩
  | invalidNumber s => exact ⟨_, h.2⟩
  | unknownIdentifier s => exact ⟨_, h.2⟩
  | unexpectedToken expected found =>
    obtain ⟨tokens, htokens, hmem, -⟩ := h
    exact hasAt_of_mem_tokens htokens hmem
  | trailingInput =>
    obtain ⟨before, o, t, after, htokens, rfl⟩ := h
    exact hasAt_of_mem_tokens htokens (by simp)
  | tooDeep =>
    obtain ⟨tokens, htokens, s, hmem, -⟩ := h
    exact hasAt_of_mem_tokens htokens hmem
  | unexpectedEnd => exact hend h
  | missingTerminator => exact hend h

lemma Fault.Faithful.slice?_quoted {text : String} {fault : Fault} (h : fault.Faithful text)
    {s : String} (hs : s ∈ fault.error.quoted?) :
    Text.slice? text fault.offset (fault.offset + s.utf8ByteSize) = some s := by
  obtain ⟨offset, error⟩ := fault
  cases error with
  | invalidNumber | unknownIdentifier =>
    cases hs
    exact h.2.slice?_eq
  | _ => cases hs

/-- The parser quotes nothing: its errors name tokens. -/
lemma quoted?_of_ofTokens {length : ℕ} {tokens : List PlacedToken} {fault : Fault}
    (h : Expr.ofTokens length tokens = .error fault) : fault.error.quoted? = none := by
  have quotes_none (htooDeep : fault.error = .tooDeep) : fault.error.quoted? = none := by
    rw [htooDeep]
    rfl
  rw [ofTokens_eq_bind] at h
  rcases hstate : (State.wantsOperand []).readAll maxDepth tokens with fault' | state <;>
    rw [hstate] at h
  · cases h
    obtain ⟨before, t, after, state, -, -, -, hfault⟩ := exists_faultAt_of_readAll hstate
    rcases hfault with htooDeep | ⟨expected, rfl⟩ | ⟨-, rfl⟩
    · exact quotes_none htooDeep
    · rfl
    · rfl
  · replace h : state.finish maxDepth length = .error fault := h
    cases state with
    | wantsOperand fs =>
      cases h
      rfl
    | hasOperand fs e =>
      rw [State.finish] at h
      rcases hclose : close maxDepth .disjunction fs e with fault' | ⟨_ | ⟨g, gs⟩, f⟩ <;>
        rw [hclose] at h <;> cases h
      · exact quotes_none (failsOnly_close _ _ _ _ hclose)
      · rfl
      · rfl
    | complete e => cases h

/-- What the error of a statement quotes is the last run that the tokenizer has taken. -/
lemma getLast?_takenRuns_of_ofChars {cs : List Char} {fault : Fault} {s : String}
    (h : Expr.ofChars cs = .error fault) (hs : s ∈ fault.error.quoted?) :
    (takenRuns 0 cs).getLast? = some (fault.offset, s) := by
  rw [Expr.ofChars] at h
  rcases htokens : tokenize 0 cs with fault' | tokens <;> rw [htokens] at h
  · cases h
    exact getLast?_takenRuns htokens hs
  · replace h : Expr.ofTokens (byteLength cs) tokens = .error fault := h
    rw [quoted?_of_ofTokens h] at hs
    cases hs

/-- **Compile errors are faithful to the text.**  Whenever a text is rejected, the error carries
the text, its offset is one between two characters or the end, and what it names stands there.
What it quotes is the part of the text from there on, and the last run of characters that the
tokenizer has taken out of the text; and no run that the tokenizer takes is out of range or splits
a character. -/
theorem Expr.parse_error_faithful (text : String) (err : CompileError)
    (h : Expr.parse text = .error err) :
    err.text = text ∧ err.fault.offset ≤ text.utf8ByteSize ∧
    String.Pos.Raw.IsValid text ⟨err.fault.offset⟩ ∧ err.fault.Faithful text ∧
    (∀ s ∈ err.fault.error.quoted?,
      Text.slice? text err.fault.offset (err.fault.offset + s.utf8ByteSize) = some s ∧
      (takenRuns 0 text.toList).getLast? = some (err.fault.offset, s)) ∧
    ∀ run ∈ takenRuns 0 text.toList,
      Text.slice? text run.1 (run.1 + run.2.utf8ByteSize) = some run.2 := by
  rw [Expr.parse] at h
  rcases hfault : Expr.ofChars text.toList with fault | e <;> rw [hfault] at h <;> cases h
  have hfaithful := faithful_of_ofChars hfault
  obtain ⟨part, hpart⟩ := hfaithful.exists_hasAt
  refine ⟨rfl, hpart.le_utf8ByteSize, hpart.isValid, hfaithful, fun s hs => ⟨?_, ?_⟩,
    fun run hrun => ?_⟩
  · exact hfaithful.slice?_quoted hs
  · exact getLast?_takenRuns_of_ofChars hfault hs
  · have htext : text.toList = [] ++ text.toList := rfl
    exact (hasAt_of_mem_takenRuns htext rfl hrun).slice?_eq

/-- Characters of two and of three bytes stand in front of the number, and one of two behind. -/
theorem Expr.parse_error_faithful_dangling_point :
    let text := "\"é\" == 　1.é"
    let err : CompileError := ⟨text, ⟨11, .invalidNumber "1."⟩⟩
    Expr.parse text = .error err ∧ Text.slice? text 11 13 = some "1." ∧
      (takenRuns 0 text.toList).getLast? = some (11, "1.") := by
  intro text err
  have herror : Expr.parse text = .error err := by decide +kernel
  obtain ⟨-, -, -, -, hquoted, -⟩ := parse_error_faithful text err herror
  exact ⟨herror, hquoted "1." rfl⟩

end GuardedMachine
