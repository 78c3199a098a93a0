/-
# Compiling printed expressions

A parsed expression is printed and compiled again.  The printed text is scanned token by token
(`tokensOf?_toTextBy`), and the tokens are those of the expression, unless a string in it has a
character that is shown by an escape the tokenizer does not read; then there are none.  What
becomes of the tokens has been said: they are read as the same expression if and only if its
operands bind as they have to.
-/
import GuardedMachine.Proofs.Decimal.Digits
import GuardedMachine.Proofs.Statement.Printing
import GuardedMachine.Proofs.Statement.Scanning

namespace GuardedMachine

open Lexeme

variable {invisible : Char → Bool}

/-! ## Tokens without their places -/

/-- The tokens of a text, if it can be split into tokens. -/
def tokensOf? (cs : List Char) : Option (List Token) :=
  (tokenize 0 cs).toOption.map (List.map PlacedToken.token)

lemma tokensOf?_eq_some_iff {cs : List Char} {ts : List Token} :
    tokensOf? cs = some ts ↔ ∃ tokens, tokenize 0 cs = .ok tokens ∧
      tokens.map PlacedToken.token = ts := by
  rw [tokensOf?]
  rcases tokenize 0 cs with fault | tokens <;> simp [Except.toOption]

lemma first_eq_ok_of_eq_ok {offset : Nat} {c : Char} {cs : List Char} {x : Lexeme}
    (h : first offset c cs = .ok x) (offset' : Nat) : first offset' c cs = .ok x :=
  first_eq_ok_iff.2 (first_eq_ok_iff.1 h)

/-- Where a text starts does not matter for its tokens. -/
lemma toOption_tokenize_eq (offset : Nat) (cs : List Char) :
    (tokenize offset cs).toOption.map (List.map PlacedToken.token) = tokensOf? cs := by
  have map_cons (t : PlacedToken) (r : Except Fault (List PlacedToken)) :
      (r.map (t :: ·)).toOption.map (List.map PlacedToken.token)
        = (r.toOption.map (List.map PlacedToken.token)).map (t.token :: ·) := by
    cases r <;> rfl
  rw [tokensOf?]
  generalize 0 = offset'
  induction offset, cs using tokenize_induction generalizing offset' with
  | done offset => rw [tokenize_nil, tokenize_nil]
  | blank offset c cs hc ih => rw [tokenize_blank hc, tokenize_blank hc, ih]
  | fault offset c cs err hc hfirst =>
    -- there is no lexeme at the other offset either
    rcases hfirst' : first offset' c cs with err' | l
    · rw [tokenize_of_first_error hc hfirst, tokenize_of_first_error hc hfirst']
      rfl
    · cases hfirst.symm.trans (first_eq_ok_of_eq_ok hfirst' offset)
  | lexeme offset c cs l hc hfirst ih =>
    rw [tokenize_of_first_ok hc hfirst,
      tokenize_of_first_ok hc (first_eq_ok_of_eq_ok hfirst offset'), map_cons, map_cons, ih]

lemma tokensOf?_space (cs : List Char) : tokensOf? (' ' :: cs) = tokensOf? cs := by
  rw [tokensOf?, tokenize_blank (by decide), toOption_tokenize_eq]

lemma tokensOf?_append_lexeme {l rest : List Char} {shape : Shape} {t : Token}
    (hshaped : Shaped l shape) (hends : Ends shape rest) (hdenotes : Denotes shape t) :
    tokensOf? (l ++ rest) = (tokensOf? rest).map (t :: ·) := by
  rw [tokensOf?, tokenize_append_lexeme hshaped hends hdenotes, ← toOption_tokenize_eq]
  rcases tokenize (0 + byteLength l) rest with _ | ts <;> rfl

/-! ## Symbols -/

/-- A symbol that no other one starts with ends wherever it stands. -/
lemma ends_of_alone {s : Symbol}
    (hs : ∀ t ∈ Symbol.all, s.spelling.isPrefixOf t.spelling = true → t = s) (rest : List Char) :
    Ends (.symbol s) rest := by
  intro t ht
  rcases Nat.le_total t.spelling.length s.spelling.length with hle | hge
  · exact hle
  · have hlonger : s.spelling <+: t.spelling :=
      List.prefix_of_prefix_length_le (List.prefix_append _ _) ht hge
    rw [hs t t.mem_all (List.isPrefixOf_iff_prefix.2 hlonger)]

/-- A symbol ends before a character with which no symbol goes on. -/
lemma ends_symbol_cons {c : Char}
    (hc : ∀ t ∈ Symbol.all, c ∈ t.spelling → t.spelling.length ≤ 1) (s : Symbol)
    (rest : List Char) : Ends (.symbol s) (c :: rest) := by
  intro t ht
  by_contra hlt
  have hprefix : s.spelling ++ [c] <+: t.spelling := by
    refine List.prefix_of_prefix_length_le ⟨rest, by simp⟩ ht ?_
    rw [List.length_append, List.length_singleton]
    omega
  have hmem : c ∈ t.spelling := hprefix.subset (by simp)
  have hle := hc t t.mem_all hmem
  have hpos := List.length_pos_iff.2 s.spelling_ne_nil
  omega

/-- Every symbol ends before a space. -/
lemma ends_of_space (s : Symbol) (rest : List Char) : Ends (.symbol s) (' ' :: rest) :=
  ends_symbol_cons (by decide) s rest

lemma tokensOf?_symbol {s : Symbol} {rest : List Char} (hends : Ends (.symbol s) rest) :
    tokensOf? (s.spelling ++ rest) = (tokensOf? rest).map (.symbol s :: ·) :=
  tokensOf?_append_lexeme (.symbol s) hends (.symbol s)

lemma BinaryOp.toList_symbol (op : BinaryOp) : op.symbol.toList = op.mark.spelling := by
  rcases op with (_ | _ | _ | _) | (_ | _ | _ | _) | (_ | _) | (_ | _) <;> rfl

lemma UnaryOp.toList_symbol (op : UnaryOp) : op.symbol.toList = op.mark.spelling := by
  cases op <;> rfl

lemma UnaryOp.ends_mark (op : UnaryOp) (rest : List Char) : Ends (.symbol op.mark) rest := by
  cases op <;> exact ends_of_alone (by decide) rest

/-! ## Strings -/

namespace Text

/-- A character that a string shows as it is, or by one of the two escapes that are read. -/
def isPlain (invisible : Char → Bool) (c : Char) : Bool :=
  c == '"' || c == '\\' || escapeBy invisible c == [c]

lemma escapeBy_eq_or (invisible : Char → Bool) (c : Char) :
    escapeBy invisible c = [c] ∨
      ∃ d ds, escapeBy invisible c = '\\' :: d :: ds ∧ (d = '"' ∨ d = '\\' → c = d ∧ ds = []) := by
  unfold escapeBy
  split
  case h_7 =>
    split
    · exact Or.inr ⟨'u', _, rfl, fun hd => absurd hd (by decide)⟩
    · exact Or.inl rfl
  all_goals exact Or.inr ⟨_, _, rfl, by decide⟩

/-- A character is shown by an escape that is read, as it is, or by an escape that is not
read. -/
lemma escapeBy_cases (invisible : Char → Bool) (c : Char) :
    ((c = '"' ∨ c = '\\') ∧ escapeBy invisible c = ['\\', c] ∧ isPlain invisible c = true) ∨
    (c ≠ '"' ∧ c ≠ '\\' ∧ escapeBy invisible c = [c] ∧ isPlain invisible c = true) ∨
    (isPlain invisible c = false ∧
      ∃ d ds, escapeBy invisible c = '\\' :: d :: ds ∧ ¬ (d = '"' ∨ d = '\\')) := by
  by_cases hread : c = '"' ∨ c = '\\'
  · refine Or.inl ⟨hread, ?_⟩
    rcases hread with rfl | rfl <;> exact ⟨rfl, rfl⟩
  · obtain ⟨hquote, hbackslash⟩ := not_or.1 hread
    rcases escapeBy_eq_or invisible c with hescape | ⟨d, ds, hescape, hd⟩
    · exact Or.inr (Or.inl ⟨hquote, hbackslash, hescape, by simp [isPlain, hescape]⟩)
    · refine Or.inr (Or.inr ⟨by simp [isPlain, hescape, hquote, hbackslash], d, ds, hescape, ?_⟩)
      intro hd'
      rw [(hd hd').1] at hread
      exact hread hd'

end Text

namespace Lexeme

lemma quotes_of_plain {cs : List Char} (h : cs.all (Text.isPlain invisible) = true) :
    Quotes cs (cs.flatMap (Text.escapeBy invisible)) := by
  induction cs with
  | nil => exact .nil
  | cons c cs ih =>
    rw [List.all_cons, Bool.and_eq_true] at h
    rw [List.flatMap_cons]
    rcases Text.escapeBy_cases invisible c with ⟨hc, hescape, -⟩ |
      ⟨hquote, hbackslash, hescape, -⟩ | ⟨hc, -⟩
    · rw [hescape]
      exact .escaped hc (ih h.2)
    · rw [hescape]
      exact .plain hquote hbackslash (ih h.2)
    · rw [hc] at h
      cases h.1

lemma stringBody_of_not_plain {cs : List Char} (h : cs.all (Text.isPlain invisible) = false)
    (start offset : Nat) (rest : List Char) :
    ∃ fault, stringBody start offset (cs.flatMap (Text.escapeBy invisible) ++ rest)
      = .error fault := by
  induction cs generalizing offset with
  | nil => cases h
  | cons c cs ih =>
    rw [List.flatMap_cons, List.append_assoc]
    rw [List.all_cons, Bool.and_eq_false_iff] at h
    rcases Text.escapeBy_cases invisible c with ⟨hc, hescape, hplain⟩ |
      ⟨hquote, hbackslash, hescape, hplain⟩ | ⟨-, d, ds, hescape, hd⟩
    · obtain ⟨fault, hfault⟩ := ih (h.resolve_left (by simp [hplain])) (offset + 2)
      refine ⟨fault, ?_⟩
      rw [hescape, List.cons_append, List.cons_append, stringBody, if_pos hc, List.nil_append,
        hfault]
      rfl
    · obtain ⟨fault, hfault⟩ := ih (h.resolve_left (by simp [hplain])) (offset + c.utf8Size)
      refine ⟨fault, ?_⟩
      rw [hescape, List.cons_append, List.nil_append, stringBody, hfault]
      · rfl
      · exact hquote
      · exact fun hc => absurd hc hbackslash
      · exact fun _ _ hc => absurd hc hbackslash
    · -- the escape is not read
      refine ⟨⟨offset + 1, .unexpectedChar d⟩, ?_⟩
      rw [hescape, List.cons_append, List.cons_append, stringBody, if_neg hd]

end Lexeme

/-! ## Literals and paths -/

/-- Whether the text of a token can be read as a lexeme. -/
def Token.isPlain (invisible : Char → Bool) : Token → Bool
  | .literal (.string s) => s.toList.all (Text.isPlain invisible)
  | _ => true

/-- What some lexeme denotes. -/
def Token.Lexical (t : Token) : Prop := ∃ l shape, Shaped l shape ∧ Denotes shape t

lemma toList_toText_path (scope : Scope) (segments : List (List Char)) :
    (Path.mk scope (segments.map String.ofList)).toText.toList
      = scope.sigil :: dotted segments := by
  have toList_foldl (text : String) :
      ((segments.map String.ofList).foldl (fun text s => text ++ "." ++ s) text).toList
        = text.toList ++ dotted segments := by
    induction segments generalizing text with
    | nil => simp [dotted]
    | cons s segments ih =>
      rw [List.map_cons, List.foldl_cons, ih]
      simp [dotted]
  rw [Path.toText, toList_foldl]
  simp

lemma toList_toText_decimal {d : Decimal} (h : d.negative = false) :
    d.toText.toList = numeral d.wholeDigits d.fractionDigits := by
  rw [Decimal.toText, String.toList_ofList, Decimal.toChars_of_nonnegative h]
  have hlength := d.length_fractionDigits
  rcases hfraction : d.fractionDigits with _ | ⟨c, cs⟩ <;> rw [hfraction] at hlength
  · have hscale : d.scale = 0 := hlength.symm
    rw [if_pos hscale, numeral, List.append_nil]
  · have hscale : d.scale ≠ 0 := by
      rw [← hlength]
      simp
    rw [if_neg hscale, numeral]

/-- The text of a literal or a path is a lexeme again. -/
lemma exists_shaped_toTextBy {t : Token} (ht : t.Lexical) (hsymbol : ∀ s, t ≠ .symbol s)
    (hplain : t.isPlain invisible = true) :
    ∃ shape, Shaped (t.toTextBy invisible).toList shape ∧ Denotes shape t := by
  obtain ⟨l, shape, hshaped, hdenotes⟩ := ht
  cases hdenotes with
  | @path scope segments =>
    cases hshaped with
    | path hne hsegments =>
      refine ⟨.path scope segments, ?_, .path⟩
      rw [Token.toTextBy, toList_toText_path]
      exact .path hne hsegments
  | @string contents =>
    refine ⟨.string contents, ?_, .string⟩
    rw [Token.isPlain, String.toList_ofList] at hplain
    have hquotes := Shaped.string (quotes_of_plain hplain)
    simpa [Token.toTextBy, Value.toTextBy, Text.quoteBy, Text.quoteChars] using hquotes
  | @number whole fraction d hnegative hmantissa hscale =>
    refine ⟨.number d.wholeDigits d.fractionDigits, ?_, ?_⟩
    · rw [Token.toTextBy, Value.toTextBy, toList_toText_decimal hnegative]
      exact .number Nat.toDigits_ne_nil
        (fun c hc => d.isDigit_of_mem_wholeDigits hc)
        (fun c hc => Decimal.isDigit_of_mem_paddedDigits hc)
    · exact .number hnegative d.ofDigitChars_digits.symm d.length_fractionDigits.symm
  | null =>
    have hword : Shaped "null".toList _ := .word rfl (List.all_eq_true.1 rfl)
    exact ⟨_, hword, .null⟩
  | true =>
    have hword : Shaped "true".toList _ := .word rfl (List.all_eq_true.1 rfl)
    exact ⟨_, hword, .true⟩
  | false =>
    have hword : Shaped "false".toList _ := .word rfl (List.all_eq_true.1 rfl)
    exact ⟨_, hword, .false⟩
  | symbol s => exact absurd rfl (hsymbol s)

/-- The rest of a text does not continue any literal or path: it starts neither with a character
of a word nor with a point. -/
def Lexeme.Apart (rest : List Char) : Prop := Stops (fun c => isWordChar c || c == '.') rest

lemma Lexeme.Apart.ends {shape : Shape} (hsymbol : ∀ s, shape ≠ .symbol s) {rest : List Char}
    (hrest : Apart rest) : Ends shape rest := by
  have not_digit {c : Char} (hc : isWordChar c = false) : c.isDigit = false := by
    simp only [isWordChar, Char.isAlphanum, Bool.or_eq_false_iff] at hc
    exact hc.1.2
  have hword : Stops isWordChar rest := fun c hc => (Bool.or_eq_false_iff.1 (hrest c hc)).1
  have hpoint : Stops (fun c => c == '.') rest :=
    fun c hc => (Bool.or_eq_false_iff.1 (hrest c hc)).2
  cases shape with
  | path => exact hrest
  | string => trivial
  | number whole fraction =>
    cases fraction with
    | nil => exact fun c hc => Bool.or_eq_false_iff.2 ⟨not_digit (hword c hc), hpoint c hc⟩
    | cons d ds => exact fun c hc => not_digit (hword c hc)
  | word => exact hword
  | symbol s => exact absurd rfl (hsymbol s)

/-- A string that is not plain cannot be read. -/
lemma tokensOf?_quoteBy {s : String} (h : s.toList.all (Text.isPlain invisible) = false)
    (rest : List Char) :
    tokensOf? ((Text.quoteBy invisible s).toList ++ rest) = none := by
  obtain ⟨fault, hfault⟩ := stringBody_of_not_plain h 0 1 ('"' :: rest)
  have hfirst : first 0 '"' (s.toList.flatMap (Text.escapeBy invisible) ++ '"' :: rest)
      = .error fault := by
    rw [first_eq]
    show string 0 _ = _
    rw [string, hfault]
    rfl
  have hquote : (Text.quoteBy invisible s).toList ++ rest
      = '"' :: (s.toList.flatMap (Text.escapeBy invisible) ++ '"' :: rest) := by
    simp [Text.quoteBy, Text.quoteChars]
  rw [hquote, tokensOf?, tokenize_of_first_error (by decide) hfirst]
  rfl

/-- The text of a literal or a path is read as its token, or not at all. -/
lemma tokensOf?_toTextBy_token (invisible : Char → Bool) {t : Token} (ht : t.Lexical)
    (hsymbol : ∀ s, t ≠ .symbol s) {rest : List Char} (hrest : Apart rest) :
    tokensOf? ((t.toTextBy invisible).toList ++ rest)
      = if t.isPlain invisible then (tokensOf? rest).map (t :: ·) else none := by
  split
  case isTrue hplain =>
    obtain ⟨shape, hshaped, hdenotes⟩ := exists_shaped_toTextBy ht hsymbol hplain
    have hends : Ends shape rest := by
      refine hrest.ends ?_
      rintro s rfl
      cases hdenotes
      exact hsymbol s rfl
    exact tokensOf?_append_lexeme hshaped hends hdenotes
  case isFalse hplain =>
    rcases t with (_ | b | d | s) | p | s
    case literal.string => exact tokensOf?_quoteBy (Bool.not_eq_true _ ▸ hplain) rest
    all_goals exact absurd rfl hplain

/-! ## Expressions -/

namespace Expr

section Text

variable {e l r : Expr} {rest : List Char}

lemma toTextBy_unary_append (op : UnaryOp) :
    ((Expr.unary op e).toTextBy invisible).toList ++ rest
      = op.mark.spelling ++ ((e.toTextBy invisible).toList ++ rest) := by
  rw [toTextBy, String.toList_append, op.toList_symbol, List.append_assoc]

lemma toTextBy_binary_append (op : BinaryOp) :
    ((Expr.binary op l r).toTextBy invisible).toList ++ rest
      = Symbol.openParen.spelling ++ ((l.toTextBy invisible).toList ++ ' ' :: (op.mark.spelling
        ++ ' ' :: ((r.toTextBy invisible).toList ++ (Symbol.closeParen.spelling ++ rest)))) := by
  simp only [toTextBy, String.toList_append, op.toList_symbol, Symbol.spelling, List.append_assoc]
  rfl

/-- A printed expression is scanned as its tokens, or not at all. -/
lemma tokensOf?_toTextBy (invisible : Char → Bool) (hlexical : ∀ t ∈ e.tokens, t.Lexical)
    (hrest : Apart rest) :
    tokensOf? ((e.toTextBy invisible).toList ++ rest)
      = if e.tokens.all (Token.isPlain invisible) then (tokensOf? rest).map (e.tokens ++ ·)
        else none := by
  induction e generalizing rest with
  | literal v =>
    have h := tokensOf?_toTextBy_token invisible (hlexical (.literal v) (by simp [tokens])) nofun
      hrest
    simpa [tokens, Token.toTextBy, toTextBy] using h
  | path p =>
    have h := tokensOf?_toTextBy_token invisible (hlexical (.path p) (by simp [tokens])) nofun
      hrest
    simpa [tokens, Token.toTextBy, toTextBy] using h
  | unary op e ih =>
    have he := ih (fun t ht => hlexical t (by simp [tokens, ht])) hrest
    rw [toTextBy_unary_append, tokensOf?_symbol (op.ends_mark _), he]
    by_cases hplain : e.tokens.all (Token.isPlain invisible) = true <;>
      simp [tokens, Token.isPlain, hplain, Function.comp_def]
  | binary op l r ihl ihr =>
    have hspace (cs : List Char) : Apart (' ' :: cs) := stops_cons.2 (by decide)
    have hparen : Apart (Symbol.closeParen.spelling ++ rest) := stops_cons.2 (by decide)
    have hl (cs : List Char) := ihl (fun t ht => hlexical t (by simp [tokens, ht])) (hspace cs)
    have hr := ihr (fun t ht => hlexical t (by simp [tokens, ht])) hparen
    rw [toTextBy_binary_append, tokensOf?_symbol (ends_of_alone (by decide) _), hl, tokensOf?_space,
      tokensOf?_symbol (ends_of_space _ _), tokensOf?_space, hr,
      tokensOf?_symbol (ends_of_alone (by decide) _)]
    by_cases hplainl : l.tokens.all (Token.isPlain invisible) = true <;>
      by_cases hplainr : r.tokens.all (Token.isPlain invisible) = true <;>
        simp [tokens, Token.isPlain, hplainl, hplainr, Function.comp_def]

end Text

/-- No string has a character, other than the double quote and the backslash, that is shown by an
escape. -/
def StringsPlain (invisible : Char → Bool) (e : Expr) : Prop :=
  ∀ s, (Expr.literal (.string s)).Within e →
    ∀ c ∈ s.toList, c ≠ '"' → c ≠ '\\' → Text.escapeBy invisible c = [c]

lemma literal_mem_tokens_iff {e : Expr} {v : Value} :
    .literal v ∈ e.tokens ↔ (Expr.literal v).Within e := by
  induction e with
  | literal w =>
    rw [tokens, List.mem_singleton, Token.literal.injEq]
    constructor
    · rintro rfl
      exact .root
    · rintro ⟨⟩
      rfl
  | path p =>
    constructor
    · intro h
      cases List.mem_singleton.1 h
    · rintro ⟨⟩
  | unary op e ih =>
    simp only [tokens, List.mem_cons, reduceCtorEq, false_or, ih]
    constructor
    · exact .operand
    · rintro ⟨h⟩
      assumption
  | binary op l r ihl ihr =>
    simp only [tokens, List.mem_cons, List.mem_append, List.not_mem_nil, reduceCtorEq, false_or,
      or_false, ihl, ihr]
    constructor
    · rintro (h | h)
      · exact .left h
      · exact .right h
    · intro h
      cases h with
      | left h => exact Or.inl h
      | right h => exact Or.inr h

lemma stringsPlain_iff {e : Expr} :
    e.StringsPlain invisible ↔ e.tokens.all (Token.isPlain invisible) = true := by
  rw [List.all_eq_true]
  constructor
  · rintro h ((_ | b | d | s) | p | s) ht
    case literal.string =>
      refine List.all_eq_true.2 fun c hc => ?_
      have hescape := h s (literal_mem_tokens_iff.1 ht) c hc
      by_cases hquote : c = '"' <;> by_cases hbackslash : c = '\\' <;>
        simp [Text.isPlain, hquote, hbackslash, hescape]
    all_goals rfl
  · intro h s hs c hc hquote hbackslash
    have hplain := List.all_eq_true.1 (h _ (literal_mem_tokens_iff.2 hs)) c hc
    simpa [Text.isPlain, hquote, hbackslash] using hplain

end Expr

/-! ## Compiling a printed expression -/

lemma Scans.lexical {offset : Nat} {cs : List Char} {ts : List PlacedToken}
    (h : Scans offset cs ts) : ∀ t ∈ ts, t.token.Lexical := by
  induction h with
  | done => simp
  | lexeme _ hshaped _ hdenotes _ ih => exact List.forall_mem_cons.2 ⟨⟨_, _, hshaped, hdenotes⟩, ih⟩

lemma Token.lexical_symbol (s : Symbol) : (Token.symbol s).Lexical :=
  ⟨s.spelling, .symbol s, .symbol s, .symbol s⟩

/-- An expression is printed with the literals and paths that it has been derived from. -/
lemma Derives.lexical_tokens {level : Level} {n : Nat} {ts : List Token} {e : Expr}
    (h : Derives level n ts e) (hts : ∀ t ∈ ts, t.Lexical) : ∀ t ∈ e.tokens, t.Lexical := by
  induction h with
  | literal | path => exact hts
  | paren _ ih => exact ih fun t ht => hts t (by simp [ht])
  | unary _ _ ih =>
    exact List.forall_mem_cons.2
      ⟨Token.lexical_symbol _, ih fun t ht => hts t (List.mem_cons_of_mem _ ht)⟩
  | binary _ _ _ ihl ihr =>
    have hl := ihl fun t ht => hts t (by simp [ht])
    have hr := ihr fun t ht => hts t (by simp [ht])
    intro t ht
    simp only [Expr.tokens, List.mem_cons, List.mem_append, List.not_mem_nil, or_false] at ht
    rcases ht with rfl | (ht | rfl | ht) | rfl
    · exact Token.lexical_symbol _
    · exact hl t ht
    · exact Token.lexical_symbol _
    · exact hr t ht
    · exact Token.lexical_symbol _
  | climb _ ih => exact ih hts

namespace Expr

lemma lexical_tokens_of_parse {text : String} {e : Expr} (h : Expr.parse text = .ok e) :
    (∀ t ∈ e.tokens, t.Lexical) ∧ e.height ≤ maxDepth := by
  obtain ⟨tokens, htokens, hexpr⟩ := parse_eq_ok_iff.1 h
  obtain ⟨n, ⟨us, hus, hd⟩, -, hheight⟩ := ofTokens_eq_ok_iff.1 hexpr
  refine ⟨hd.lexical_tokens fun t ht => ?_, hheight⟩
  have hmem : t ∈ tokens.map PlacedToken.token := by
    rw [hus]
    exact List.mem_append_left _ ht
  obtain ⟨placed, hplaced, rfl⟩ := List.mem_map.1 hmem
  exact (scans_of_tokenize htokens).lexical placed hplaced

/-- The tokens of a printed statement. -/
lemma tokensOf?_statement (invisible : Char → Bool) {e : Expr}
    (hlexical : ∀ t ∈ e.tokens, t.Lexical) :
    tokensOf? (e.toTextBy invisible ++ ";").toList
      = if e.tokens.all (Token.isPlain invisible) then some (e.tokens ++ [.symbol .semicolon])
        else none := by
  have hsemicolon : tokensOf? [';'] = some [.symbol .semicolon] := by decide +kernel
  have h := tokensOf?_toTextBy invisible hlexical (stops_cons.2 (by decide) : Apart [';'])
  rw [hsemicolon] at h
  rw [String.toList_append]
  exact h

/-- **Printing and compiling again.**  The text of a parsed expression, with a semicolon, compiles
to the same expression if and only if no `!` is a direct operand of a unary `-`, of arithmetic
or of a comparison, and no string has a character that is shown by an escape the tokenizer does
not read.  It is then even the expression itself, and fewer parentheses and unary operators are
open at once than the expression is high.

Which characters are taken to be invisible, and so are shown by their code points, is left open;
the condition on strings is stated with the same escapes as the text is printed with. -/
theorem parse_toText (invisible : Char → Bool) (text : String) (e : Expr)
    (h : Expr.parse text = .ok e) :
    ((∃ e', Expr.parse (e.toTextBy invisible ++ ";") = .ok e' ∧ e'.same e = true) ↔
      e.NegationsLoose ∧ e.StringsPlain invisible) ∧
    (e.NegationsLoose ∧ e.StringsPlain invisible →
      Expr.parse (e.toTextBy invisible ++ ";") = .ok e ∧
        ∃ tokens n, tokenize 0 (e.toTextBy invisible ++ ";").toList = .ok tokens ∧
          DerivesStatement n (tokens.map PlacedToken.token) e ∧ n < e.height ∧
            e.height ≤ maxDepth) := by
  obtain ⟨hlexical, hheight⟩ := lexical_tokens_of_parse h
  have hstatement := tokensOf?_statement invisible hlexical
  have compiles (hgood : e.NegationsLoose ∧ e.StringsPlain invisible) :
      Expr.parse (e.toTextBy invisible ++ ";") = .ok e ∧
        ∃ tokens n, tokenize 0 (e.toTextBy invisible ++ ";").toList = .ok tokens ∧
          DerivesStatement n (tokens.map PlacedToken.token) e ∧ n < e.height ∧
            e.height ≤ maxDepth := by
    obtain ⟨hloose, hplain⟩ := hgood
    rw [if_pos (stringsPlain_iff.1 hplain)] at hstatement
    obtain ⟨tokens, htokens, hmap⟩ := tokensOf?_eq_some_iff.1 hstatement
    obtain ⟨n, hn, hd⟩ := (binds_iff_negationsLoose.2 hloose).derives
    have hderives : DerivesStatement n (tokens.map PlacedToken.token) e :=
      ⟨e.tokens, hmap, hd.of_le (Level.disjunction_le _)⟩
    refine ⟨?_, tokens, n, htokens, hderives, hn, hheight⟩
    refine parse_eq_ok_iff.2 ⟨tokens, htokens, ofTokens_eq_ok_iff.2 ⟨n, hderives, ?_, hheight⟩⟩
    omega
  refine ⟨⟨?_, fun hgood => ⟨e, (compiles hgood).1, e.same_refl⟩⟩, compiles⟩
  rintro ⟨e', hparse, hsame⟩
  obtain ⟨tokens, htokens, hexpr⟩ := parse_eq_ok_iff.1 hparse
  have hsome : tokensOf? (e.toTextBy invisible ++ ";").toList
      = some (tokens.map PlacedToken.token) :=
    tokensOf?_eq_some_iff.2 ⟨tokens, htokens, rfl⟩
  rw [hstatement] at hsome
  split at hsome
  case isTrue hplain =>
    refine ⟨binds_iff_negationsLoose.1 ?_, stringsPlain_iff.2 hplain⟩
    have hcomplete := (Parsing.readAll_eq_complete_iff (by decide)).2 (ofTokens_eq_ok_iff.1 hexpr)
    exact Parsing.binds_of_readAll (Option.some.inj hsome).symm hcomplete hsame
  case isFalse => cases hsome

/-- A negation of a comparison, as an operand of `&&`. -/
theorem parse_toText_negation :
    let text := "!(#.n==1) && $.on;"
    let e : Expr := .binary (.logic .and)
      (.unary .not (.binary (.equality .equal) (.path ⟨.subject, ["n"]⟩)
        (.literal (.decimal ⟨false, 1, 0, by decide, by decide⟩)))) (.path ⟨.context, ["on"]⟩)
    Expr.parse text = .ok e ∧ e.toText = "(!(#.n == 1) && $.on)" ∧
      ((∃ e', Expr.parse (e.toText ++ ";") = .ok e' ∧ e'.same e = true) ↔
        e.NegationsLoose ∧ e.StringsPlain Text.isInvisible) ∧
      (e.NegationsLoose ∧ e.StringsPlain Text.isInvisible → Expr.parse (e.toText ++ ";") = .ok e ∧
        ∃ tokens n, tokenize 0 (e.toText ++ ";").toList = .ok tokens ∧
          DerivesStatement n (tokens.map PlacedToken.token) e ∧ n < e.height ∧
            e.height ≤ maxDepth) := by
  intro text e
  have hparse : Expr.parse text = .ok e := by decide +kernel
  exact ⟨hparse, by decide +kernel, parse_toText Text.isInvisible text e hparse⟩

/-- A negation in front of a comparison is printed without its parentheses, and then negates the
comparison. -/
example : (Expr.parse "(!#.a) == $.b;").map Expr.toText = .ok "(!#.a == $.b)" ∧
    Expr.parse "(!#.a == $.b);"
      = .ok (.unary .not (.binary (.equality .equal) (.path ⟨.subject, ["a"]⟩)
          (.path ⟨.context, ["b"]⟩))) := by
  constructor <;> cbv

end Expr

end GuardedMachine
