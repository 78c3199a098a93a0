/-
# Printed expressions are read in one way

The text of a parsed expression determines the expression, although the tokenizer cannot read
all of it, and the parser may make something else of it.

What is needed for this is said of each part of a text in the same form: if two parts, each with
some rest after it, make the same text, then the parts are the same, and so are the rests.  For
characters between quotes this holds before any rest, since no escape starts another one
(`Text.escapeBy_append_inj`); for literals and paths it holds before a rest that does not go on with
them (`Token.toTextBy_append_inj`), since the first lexeme of a text is the only one; and from there
it is carried to expressions, whose first symbol tells the operators apart
(`Expr.toTextBy_append_inj`).

It does not hold of all expressions: a negative literal is printed like a sign in front of a
literal.  The literals of a parsed expression have no sign.
-/
import GuardedMachine.Proofs.Statement.Reprinting

namespace GuardedMachine

open Lexeme

/-- What stands in front of the first delimiter is told from what follows it. -/
lemma append_cons_inj_of_delimiter {x : Char} {l l' r r' : List Char} (hl : x ∉ l) (hl' : x ∉ l')
    (h : l ++ x :: r = l' ++ x :: r') : l = l' ∧ r = r' := by
  have before_delimiter {l : List Char} (hl : x ∉ l) (r : List Char) :
      (l ++ x :: r).takeWhile (fun c => c != x) = l := by
    refine takeWhile_append_of_stops (fun c hc => bne_iff_ne.2 ?_) (stops_cons.2 (by simp))
    rintro rfl
    exact hl hc
  have hfront := congrArg (List.takeWhile fun c => c != x) h
  rw [before_delimiter hl, before_delimiter hl'] at hfront
  rw [hfront] at h
  exact ⟨hfront, (List.cons.inj (List.append_cancel_left h)).2⟩

/-! ## Quoted characters -/

section Digits

variable {b : Nat}

/-- The digits of a number in any base have the characters of digits. -/
lemma exists_digitChar_of_mem_toDigits (hb : 1 < b) {n : Nat} {c : Char}
    (hc : c ∈ Nat.toDigits b n) : ∃ d, d < b ∧ c = d.digitChar := by
  induction n using Nat.strongRecOn with
  | ind n ih =>
    rw [Nat.toDigits_eq_if hb] at hc
    split at hc
    case isTrue hlt => exact ⟨n, hlt, List.mem_singleton.1 hc⟩
    case isFalse hge =>
      rcases List.mem_append.1 hc with hc | hc
      · exact ih (n / b) (Nat.div_lt_self (by omega) hb) hc
      · exact ⟨n % b, Nat.mod_lt _ (by omega), List.mem_singleton.1 hc⟩

/-- If digits can be told apart, then so can numbers. -/
lemma toDigits_injective (hb : 1 < b)
    (hdigits : ∀ d < b, ∀ e < b, d.digitChar = e.digitChar → d = e) {m n : Nat}
    (h : Nat.toDigits b m = Nat.toDigits b n) : m = n := by
  induction m using Nat.strongRecOn generalizing n with
  | ind m ih =>
    rcases Nat.lt_or_ge m b with hm | hm <;> rcases Nat.lt_or_ge n b with hn | hn
    · rw [Nat.toDigits_of_lt_base hm, Nat.toDigits_of_lt_base hn] at h
      exact hdigits m hm n hn (List.cons.inj h).1
    · rw [Nat.toDigits_of_lt_base hm, Nat.toDigits_of_base_le hb hn] at h
      have hinit := List.append_inj_left' (show [] ++ [m.digitChar] = _ from h) rfl
      exact absurd hinit.symm Nat.toDigits_ne_nil
    · rw [Nat.toDigits_of_base_le hb hm, Nat.toDigits_of_lt_base hn] at h
      have hinit := List.append_inj_left' (show _ = [] ++ [n.digitChar] from h) rfl
      exact absurd hinit Nat.toDigits_ne_nil
    · rw [Nat.toDigits_of_base_le hb hm, Nat.toDigits_of_base_le hb hn] at h
      obtain ⟨hinit, hlast⟩ := List.append_inj' h rfl
      have hdiv : m / b = n / b := ih (m / b) (Nat.div_lt_self (by omega) hb) hinit
      have hmod : m % b = n % b :=
        hdigits _ (Nat.mod_lt _ (by omega)) _ (Nat.mod_lt _ (by omega)) (List.cons.inj hlast).1
      rw [← Nat.div_add_mod m b, ← Nat.div_add_mod n b, hdiv, hmod]

end Digits

variable {invisible : Char → Bool}

namespace Text

/-- The code point of a character between braces, as an escape shows it. -/
def braced (c : Char) : List Char := Nat.toDigits 16 c.toNat ++ ['\x7d']

/-- A character is shown as it is, or by a mark of its own after a backslash, or by its code
point. -/
lemma escapeBy_forms (invisible : Char → Bool) (c : Char) :
    (c ≠ '"' ∧ c ≠ '\\' ∧ escapeBy invisible c = [c]) ∨
    (∃ mark, mark ≠ 'u' ∧ escapeBy invisible c = ['\\', mark] ∧
      ∀ d, escapeBy invisible d = ['\\', mark] → d = c) ∨
    escapeBy invisible c = '\\' :: 'u' :: '\x7b' :: braced c := by
  have unmarked {d mark : Char} (h : (if invisible d then
      ['\\', 'u', '\x7b'] ++ Nat.toDigits 16 d.toNat ++ ['\x7d'] else [d]) = ['\\', mark]) :
      False := by
    split at h <;> simp at h
  unfold escapeBy
  split
  case h_7 hquote hbackslash _ _ _ _ =>
    split
    · exact Or.inr (Or.inr rfl)
    · exact Or.inl ⟨hquote, hbackslash, rfl⟩
  all_goals
    refine Or.inr (Or.inl ⟨_, ?_, rfl, fun d hd => ?_⟩)
    · decide
    · split at hd <;> first | rfl | exact (unmarked hd).elim | simp at hd

lemma braced_append_inj {c d : Char} {r s : List Char} (h : braced c ++ r = braced d ++ s) :
    c = d ∧ r = s := by
  have no_brace (c : Char) : '\x7d' ∉ Nat.toDigits 16 c.toNat := by
    intro hmem
    obtain ⟨d, -, hd⟩ := exists_digitChar_of_mem_toDigits (by decide) hmem
    exact Nat.digitChar_ne '\x7d' (by decide) hd.symm
  simp only [braced, List.append_assoc, List.singleton_append] at h
  obtain ⟨hdigits, hrest⟩ := append_cons_inj_of_delimiter (no_brace c) (no_brace d) h
  have hpoint : c.toNat = d.toNat := toDigits_injective (by decide) (by decide) hdigits
  exact ⟨Char.toNat_inj.1 hpoint, hrest⟩

/-- An escape is told from what follows it, whatever that is. -/
lemma escapeBy_append_inj {c d : Char} {r s : List Char}
    (h : escapeBy invisible c ++ r = escapeBy invisible d ++ s) : c = d ∧ r = s := by
  rcases escapeBy_forms invisible c with ⟨-, hc, hcs⟩ | ⟨mark, hmark, hcs, hunique⟩ | hcs <;>
    rcases escapeBy_forms invisible d with ⟨-, hd, hds⟩ | ⟨mark', hmark', hds, hunique'⟩ | hds <;>
      rw [hcs, hds] at h
  · exact List.cons.inj h
  · exact absurd (List.cons.inj h).1 hc
  · exact absurd (List.cons.inj h).1 hc
  · exact absurd (List.cons.inj h).1.symm hd
  · obtain ⟨rfl, hrest⟩ := List.cons.inj (List.cons.inj h).2
    exact ⟨hunique' c hcs, hrest⟩
  · exact absurd (List.cons.inj (List.cons.inj h).2).1 hmark
  · exact absurd (List.cons.inj h).1.symm hd
  · exact absurd (List.cons.inj (List.cons.inj h).2).1.symm hmark'
  · exact braced_append_inj (List.cons.inj (List.cons.inj (List.cons.inj h).2).2).2

/-- No escape starts with a quote, so the first quote is the closing one. -/
lemma escapeBy_append_ne_quote (c : Char) (r s : List Char) :
    escapeBy invisible c ++ r ≠ '"' :: s := by
  intro h
  rcases escapeBy_forms invisible c with ⟨hc, -, hcs⟩ | ⟨mark, -, hcs, -⟩ | hcs <;> rw [hcs] at h
  · exact hc (List.cons.inj h).1
  · exact absurd (List.cons.inj h).1 (by decide)
  · exact absurd (List.cons.inj h).1 (by decide)

lemma contents_append_inj {cs ds r s : List Char}
    (h : cs.flatMap (escapeBy invisible) ++ '"' :: r
      = ds.flatMap (escapeBy invisible) ++ '"' :: s) :
    cs = ds ∧ r = s := by
  induction cs generalizing ds with
  | nil =>
    cases ds with
    | nil => exact ⟨rfl, (List.cons.inj h).2⟩
    | cons d ds =>
      rw [List.flatMap_cons, List.append_assoc] at h
      exact absurd h.symm (escapeBy_append_ne_quote d _ r)
  | cons c cs ih =>
    rw [List.flatMap_cons, List.append_assoc] at h
    cases ds with
    | nil => exact absurd h (escapeBy_append_ne_quote c _ s)
    | cons d ds =>
      rw [List.flatMap_cons, List.append_assoc] at h
      obtain ⟨rfl, hrest⟩ := escapeBy_append_inj h
      obtain ⟨rfl, rfl⟩ := ih hrest
      exact ⟨rfl, rfl⟩

/-- A quoted text is told from what follows it. -/
lemma quoteBy_append_inj {s t : String} {r r' : List Char}
    (h : (quoteBy invisible s).toList ++ r = (quoteBy invisible t).toList ++ r') :
    s = t ∧ r = r' := by
  simp only [quoteBy, quoteChars, String.toList_ofList, List.cons_append, List.append_assoc,
    List.nil_append] at h
  obtain ⟨hcontents, hrest⟩ := contents_append_inj (List.cons.inj h).2
  exact ⟨String.toList_inj.1 hcontents, hrest⟩

end Text

/-! ## Literals and paths -/

namespace Token

/-- The form of the lexemes that denote a token. -/
def form : Token → Lexeme.Kind
  | .literal (.string _) => .string
  | .literal (.decimal _) => .number
  | .literal _ => .word
  | .path p => .path p.scope
  | .symbol _ => .symbol

lemma form_eq_symbol_iff {t : Token} : t.form = .symbol ↔ ∃ s, t = .symbol s := by
  rcases t with (_ | b | d | s) | p | s <;> simp [form]

lemma form_eq_string_iff {t : Token} : t.form = .string ↔ ∃ s, t = .literal (.string s) := by
  rcases t with (_ | b | d | s) | p | s <;> simp [form]

lemma kind_eq_form {shape : Shape} {t : Token} (h : Denotes shape t) : shape.kind = t.form := by
  cases h <;> rfl

lemma isPlain_of_form_ne_string {t : Token} (h : t.form ≠ .string) :
    t.isPlain invisible = true := by
  rcases t with (_ | b | d | s) | p | s <;> first | rfl | exact absurd rfl h

variable {t t' : Token} {r r' : List Char}

/-- The text of a literal or a path starts as its form says, also where it is no lexeme. -/
lemma exists_start (ht : t.Lexical) (hsymbol : t.form ≠ .symbol) :
    ∃ c cs, (t.toTextBy invisible).toList = c :: cs ∧ Lexeme.Kind.ofStart c = t.form := by
  by_cases hstring : t.form = .string
  · obtain ⟨s, rfl⟩ := form_eq_string_iff.1 hstring
    exact ⟨'"', _, String.toList_ofList, rfl⟩
  · have hne : ∀ s, t ≠ .symbol s := fun s hs => hsymbol (form_eq_symbol_iff.2 ⟨s, hs⟩)
    obtain ⟨shape, hshaped, hdenotes⟩ :=
      exists_shaped_toTextBy ht hne (isPlain_of_form_ne_string hstring)
    obtain ⟨c, cs, hcs⟩ := List.exists_cons_of_ne_nil hshaped.ne_nil
    rw [hcs] at hshaped
    exact ⟨c, cs, hcs, hshaped.kind_eq.symm.trans (kind_eq_form hdenotes)⟩

/-- What is no string has a text that is a lexeme. -/
lemma first_of_toTextBy (ht : t.Lexical) (hsymbol : t.form ≠ .symbol) (hstring : t.form ≠ .string)
    (hr : Apart r) {c : Char} {cs : List Char} (h : (t.toTextBy invisible).toList ++ r = c :: cs) :
    first 0 c cs = .ok ⟨t, (t.toTextBy invisible).toList, r⟩ := by
  have hne : ∀ s, t ≠ .symbol s := fun s hs => hsymbol (form_eq_symbol_iff.2 ⟨s, hs⟩)
  obtain ⟨shape, hshaped, hdenotes⟩ :=
    exists_shaped_toTextBy ht hne (isPlain_of_form_ne_string hstring)
  refine first_eq_ok_iff.2 ⟨h, shape, hshaped, hr.ends ?_, hdenotes⟩
  rintro s rfl
  cases hdenotes
  exact hsymbol rfl

/-- The text of a literal or a path is told from what follows it, if that does not go on with
it. -/
lemma toTextBy_append_inj (ht : t.Lexical) (ht' : t'.Lexical) (hsymbol : t.form ≠ .symbol)
    (hsymbol' : t'.form ≠ .symbol) (hr : Apart r) (hr' : Apart r')
    (h : (t.toTextBy invisible).toList ++ r = (t'.toTextBy invisible).toList ++ r') :
    t = t' ∧ r = r' := by
  obtain ⟨c, cs, hcs, hform⟩ := exists_start ht hsymbol
  obtain ⟨d, ds, hds, hform'⟩ := exists_start ht' hsymbol'
  have hstart : c :: (cs ++ r) = d :: (ds ++ r') := by
    rw [hcs, hds] at h
    exact h
  obtain rfl : c = d := (List.cons.inj hstart).1
  by_cases hstring : t.form = .string
  · obtain ⟨s, rfl⟩ := form_eq_string_iff.1 hstring
    obtain ⟨s', rfl⟩ := form_eq_string_iff.1 (hform'.symm.trans (hform.trans hstring))
    obtain ⟨rfl, hrest⟩ := Text.quoteBy_append_inj h
    exact ⟨rfl, hrest⟩
  · have hstring' : t'.form ≠ .string := by
      rw [← hform', hform]
      exact hstring
    -- both are the first lexeme of the text
    have hfirst := first_of_toTextBy ht hsymbol hstring hr (congrArg (· ++ r) hcs)
    have hfirst' := first_of_toTextBy ht' hsymbol' hstring' hr'
      (h.symm.trans (congrArg (· ++ r) hcs))
    have hlexeme : Lexeme.mk t (t.toTextBy invisible).toList r
        = ⟨t', (t'.toTextBy invisible).toList, r'⟩ :=
      Except.ok.inj (hfirst.symm.trans hfirst')
    obtain ⟨htoken, -, hrest⟩ := Lexeme.mk.inj hlexeme
    exact ⟨htoken, hrest⟩

end Token

/-! ## Expressions -/

lemma UnaryOp.mark_injective {op op' : UnaryOp} (h : op.mark = op'.mark) : op = op' := by
  cases op <;> cases op' <;> first | rfl | cases h

lemma BinaryOp.mark_injective {op op' : BinaryOp} (h : op.mark = op'.mark) : op = op' := by
  have hop : op.mark.binary? = some op := (joins_iff.1 op.joins_mark).1
  have hop' : op'.mark.binary? = some op' := (joins_iff.1 op'.joins_mark).1
  rw [h, hop'] at hop
  exact (Option.some.inj hop).symm

namespace Expr

/-- The token that a printed expression starts with. -/
def leader : Expr → Token
  | .literal v => .literal v
  | .path p => .path p
  | .unary op _ => .symbol op.mark
  | .binary _ _ _ => .symbol .openParen

lemma leader_mem_tokens (e : Expr) : e.leader ∈ e.tokens := by
  cases e <;> simp [leader, tokens]

/-- Without an operator, an expression is its first token. -/
lemma eq_of_leader_eq {e e' : Expr} (hsymbol : e.leader.form ≠ .symbol)
    (h : e.leader = e'.leader) : e = e' := by
  cases e with
  | literal v =>
    cases e' with
    | literal w => rw [Token.literal.inj h]
    | path | unary | binary => cases h
  | path p =>
    cases e' with
    | path q => rw [Token.path.inj h]
    | literal | unary | binary => cases h
  | unary | binary => exact absurd rfl hsymbol

lemma toTextBy_eq_toTextBy_leader {e : Expr} (hsymbol : e.leader.form ≠ .symbol) :
    e.toTextBy invisible = e.leader.toTextBy invisible := by
  cases e with
  | literal | path => rfl
  | unary | binary => exact absurd rfl hsymbol

/-- The expression is printed with lexemes. -/
def Lexical (e : Expr) : Prop := ∀ t ∈ e.tokens, t.Lexical

section Reading

variable {e e' : Expr} {r r' : List Char}

lemma Lexical.leader (h : e.Lexical) : e.leader.Lexical := h _ e.leader_mem_tokens

lemma Lexical.operand {op : UnaryOp} (h : (Expr.unary op e).Lexical) : e.Lexical :=
  fun t ht => h t (by simp [tokens, ht])

lemma Lexical.left {op : BinaryOp} (h : (Expr.binary op e e').Lexical) : e.Lexical :=
  fun t ht => h t (by simp [tokens, ht])

lemma Lexical.right {op : BinaryOp} (h : (Expr.binary op e e').Lexical) : e'.Lexical :=
  fun t ht => h t (by simp [tokens, ht])

/-- The first character of the text says whether it starts with a symbol, and with which one. -/
lemma exists_start (he : e.Lexical) :
    ∃ c cs, (e.toTextBy invisible).toList = c :: cs ∧ Lexeme.Kind.ofStart c = e.leader.form ∧
      ∀ s, e.leader = .symbol s → s.spelling = [c] := by
  by_cases hsymbol : e.leader.form = .symbol
  · obtain ⟨s, hs⟩ := Token.form_eq_symbol_iff.1 hsymbol
    cases e with
    | literal | path => cases hs
    | unary op e =>
      have htext := List.append_nil ((Expr.unary op e).toTextBy invisible).toList
      rw [toTextBy_unary_append] at htext
      cases op <;> exact ⟨_, _, htext.symm, rfl, fun s hs => Token.symbol.inj hs ▸ rfl⟩
    | binary op l r =>
      have htext := List.append_nil ((Expr.binary op l r).toTextBy invisible).toList
      rw [toTextBy_binary_append] at htext
      exact ⟨_, _, htext.symm, rfl, fun s hs => Token.symbol.inj hs ▸ rfl⟩
  · obtain ⟨c, cs, hcs, hform⟩ := Token.exists_start he.leader hsymbol
    rw [toTextBy_eq_toTextBy_leader hsymbol]
    exact ⟨c, cs, hcs, hform, fun s hs =>
      absurd (Token.form_eq_symbol_iff.2 ⟨s, hs⟩) hsymbol⟩

/-- If one of two texts starts with a symbol, then so does the other. -/
lemma leader_eq_symbol (he : e.Lexical) (he' : e'.Lexical)
    (h : (e.toTextBy invisible).toList ++ r = (e'.toTextBy invisible).toList ++ r') {s : Symbol}
    (hs : e.leader = .symbol s) : e'.leader = .symbol s := by
  obtain ⟨c, cs, hcs, hform, hspelling⟩ := exists_start he
  obtain ⟨d, ds, hds, hform', hspelling'⟩ := exists_start he'
  obtain rfl : c = d := by
    rw [hcs, hds] at h
    exact (List.cons.inj h).1
  have hsymbol : e'.leader.form = .symbol := by
    rw [← hform', hform, hs]
    rfl
  obtain ⟨s', hs'⟩ := Token.form_eq_symbol_iff.1 hsymbol
  rw [hs', spelling_injective ((hspelling s hs).trans (hspelling' s' hs').symm)]

/-- If there is no operator in one of two texts, then the first token is all of both. -/
lemma leader_append_inj (he : e.Lexical) (he' : e'.Lexical) (hsymbol : ∀ s, e.leader ≠ .symbol s)
    (hr : Apart r) (hr' : Apart r')
    (h : (e.toTextBy invisible).toList ++ r = (e'.toTextBy invisible).toList ++ r') :
    e = e' ∧ r = r' := by
  have hform : e.leader.form ≠ .symbol := by
    intro hform
    obtain ⟨s, hs⟩ := Token.form_eq_symbol_iff.1 hform
    exact hsymbol s hs
  have hform' : e'.leader.form ≠ .symbol := by
    intro hform'
    obtain ⟨s, hs⟩ := Token.form_eq_symbol_iff.1 hform'
    exact hsymbol s (leader_eq_symbol he' he h.symm hs)
  rw [toTextBy_eq_toTextBy_leader hform, toTextBy_eq_toTextBy_leader hform'] at h
  obtain ⟨hleader, hrest⟩ := Token.toTextBy_append_inj he.leader he'.leader hform hform' hr hr' h
  exact ⟨eq_of_leader_eq hform hleader, hrest⟩

/-- The text of an expression is told from what follows it, if that does not go on with a literal
or a path. -/
lemma toTextBy_append_inj (he : e.Lexical) (he' : e'.Lexical) (hr : Apart r) (hr' : Apart r')
    (h : (e.toTextBy invisible).toList ++ r = (e'.toTextBy invisible).toList ++ r') :
    e = e' ∧ r = r' := by
  have hspace (cs : List Char) : Apart (' ' :: cs) := stops_cons.2 (by decide)
  have hparen (cs : List Char) : Apart (Symbol.closeParen.spelling ++ cs) :=
    stops_cons.2 (by decide)
  have no_space (s : Symbol) : ' ' ∉ s.spelling := by cases s <;> decide
  induction e generalizing e' r r' with
  | literal v => exact leader_append_inj he he' (by simp [Expr.leader]) hr hr' h
  | path p => exact leader_append_inj he he' (by simp [Expr.leader]) hr hr' h
  | unary op x ih =>
    have hleader := leader_eq_symbol he he' h rfl
    cases e' with
    | literal | path => cases hleader
    | binary => cases op <;> cases hleader
    | unary op' x' =>
      obtain rfl := UnaryOp.mark_injective (Token.symbol.inj hleader).symm
      rw [toTextBy_unary_append, toTextBy_unary_append] at h
      obtain ⟨rfl, hrest⟩ := ih he.operand he'.operand hr hr' (List.append_cancel_left h)
      exact ⟨rfl, hrest⟩
  | binary op x y ihx ihy =>
    have hleader := leader_eq_symbol he he' h rfl
    cases e' with
    | literal | path => cases hleader
    | unary op' => cases op' <;> cases hleader
    | binary op' x' y' =>
      rw [toTextBy_binary_append, toTextBy_binary_append] at h
      -- one part after the other: the left operand, the operator, the right operand
      obtain ⟨rfl, hop⟩ := ihx he.left he'.left (hspace _) (hspace _) (List.append_cancel_left h)
      obtain ⟨hmark, hy⟩ := append_cons_inj_of_delimiter (no_space op.mark) (no_space op'.mark)
        (List.cons.inj hop).2
      obtain rfl := BinaryOp.mark_injective (spelling_injective hmark)
      obtain ⟨rfl, hrest⟩ := ihy he.right he'.right (hparen _) (hparen _) hy
      exact ⟨rfl, List.append_cancel_left hrest⟩

end Reading

/-- **The printed form identifies the expression.**  Two parsed expressions with the same text are
the same, and even equal.  Nothing is asked of that text: it may be one that does not compile, or
that compiles to something else. -/
theorem same_of_toText_eq {text text' : String} {e e' : Expr} (h : Expr.parse text = .ok e)
    (h' : Expr.parse text' = .ok e') (htext : e.toText = e'.toText) :
    e.same e' = true ∧ e = e' := by
  have hlexical : e.Lexical := (lexical_tokens_of_parse h).1
  have hlexical' : e'.Lexical := (lexical_tokens_of_parse h').1
  have hend : Apart [] := stops_nil _
  rw [toText, toText] at htext
  obtain ⟨rfl, -⟩ := toTextBy_append_inj hlexical hlexical' hend hend
    (congrArg (fun s => s.toList ++ []) htext)
  exact ⟨e.same_refl, rfl⟩

/-- A negation in parentheses is compared with a string that has a tabulator in it.  The printed
form has no parentheses around the negation, and an escape that is not read. -/
theorem same_of_toText_eq_negation :
    let text := "(!#.a) == \"\t\";"
    let text' := "((!(#.a)) ==(\"\t\"));"
    let e : Expr := .binary (.equality .equal) (.unary .not (.path ⟨.subject, ["a"]⟩))
      (.literal (.string "\t"))
    Expr.parse text = .ok e ∧ Expr.parse text' = .ok e ∧ e.toText = "(!#.a == \"\\t\")" ∧
      (Expr.parse (e.toText ++ ";")).isOk = false ∧ e.same e = true := by
  intro text text' e
  have h : Expr.parse text = .ok e := by decide +kernel
  have h' : Expr.parse text' = .ok e := by decide +kernel
  exact ⟨h, h', by decide +kernel, by decide +kernel, (same_of_toText_eq h h' rfl).1⟩

/-- A negative literal, which no text stands for, is printed like a sign in front of a literal. -/
example :
    let one : Decimal := ⟨false, 1, 0, by decide, by decide⟩
    (Expr.literal (.decimal (-one))).toText = (Expr.unary .neg (.literal (.decimal one))).toText ∧
      (Expr.literal (.decimal (-one))).same (.unary .neg (.literal (.decimal one))) = false := by
  constructor <;> decide +kernel

end Expr

end GuardedMachine
