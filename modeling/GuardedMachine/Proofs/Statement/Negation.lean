/-
# Negating a statement

The text of a statement is a body and the semicolon after it.  Put between `!(` and `);`, the
body is a statement again, and it compiles to the negated expression, unless that is too deep.

That the body is split into the same tokens as before is not obvious, because a lexeme is as
long as the text allows, and the body is followed by another character now.  But only the last
lexeme of the body can stand next to it, and no lexeme goes on with a parenthesis
(`Scans.body`).
-/
import GuardedMachine.Proofs.Statement.FirstError
import GuardedMachine.Proofs.Statement.Reprinting

namespace GuardedMachine

open Lexeme

/-! ## Lexemes in front of other texts -/

namespace Lexeme

lemma length_spelling_le (s : Symbol) : s.spelling.length ≤ 2 := by cases s <;> decide

/-- Whether a lexeme goes on is up to the next character. -/
lemma Ends.of_head? {shape : Shape} {rest rest' : List Char} (hhead : rest.head? = rest'.head?)
    (h : Ends shape rest) : Ends shape rest' := by
  have stops {p : Char → Bool} (hp : Stops p rest) : Stops p rest' := by
    rw [Stops, ← hhead]
    exact hp
  cases shape with
  | path => exact stops h
  | string => trivial
  | number whole fraction =>
    cases fraction with
    | nil => exact stops h
    | cons d ds => exact stops h
  | word => exact stops h
  | symbol s =>
    intro t ht
    by_contra hlt
    -- a longer symbol takes one more character, which is the next one of both texts
    obtain ⟨tail, htail⟩ := List.prefix_of_prefix_length_le (List.prefix_append s.spelling rest')
      ht (by omega)
    have hlength := length_spelling_le t
    have hpos := List.length_pos_iff.2 s.spelling_ne_nil
    rw [← htail, List.length_append] at hlength hlt
    obtain ⟨c, rfl⟩ := List.length_eq_one_iff.1 (by omega : tail.length = 1)
    rw [← htail, List.prefix_append_right_inj] at ht
    obtain ⟨more, hmore⟩ := ht
    rw [← hmore, List.singleton_append, List.head?_cons] at hhead
    obtain ⟨cs, rfl⟩ := List.head?_eq_some_iff.1 hhead
    have hle := h t (by rw [← htail]; exact ⟨cs, by simp⟩)
    rw [← htail, List.length_append, List.length_singleton] at hle
    omega

/-- Every lexeme ends before a character with which neither a word, a number or a path nor a
symbol goes on. -/
lemma ends_cons {c : Char} (hapart : (isWordChar c || c == '.') = false)
    (hsymbol : ∀ t ∈ Symbol.all, c ∈ t.spelling → t.spelling.length ≤ 1) (shape : Shape)
    (rest : List Char) : Ends shape (c :: rest) := by
  by_cases h : ∃ s, shape = .symbol s
  · obtain ⟨s, rfl⟩ := h
    exact ends_symbol_cons hsymbol s rest
  · have hrest : Apart (c :: rest) := stops_cons.2 hapart
    exact hrest.ends fun s hs => h ⟨s, hs⟩

/-- Every lexeme ends before a closing parenthesis. -/
lemma ends_closeParen (shape : Shape) (rest : List Char) : Ends shape (')' :: rest) :=
  ends_cons (by decide) (by decide) shape rest

end Lexeme

/-! ## The body of a statement -/

lemma tokensOf?_append_blanks {blanks : List Char} (h : ∀ c ∈ blanks, Text.isBlank c = true)
    (cs : List Char) : tokensOf? (blanks ++ cs) = tokensOf? cs := by
  rw [tokensOf?, tokenize_append_blanks h, toOption_tokenize_eq]

lemma shape_eq_of_denotes_symbol {shape : Shape} {s : Symbol} (h : Denotes shape (.symbol s)) :
    shape = .symbol s := by
  cases h
  rfl

/-- If the last token of a text is a semicolon, nothing but white space follows it; and in front
of a closing parenthesis, what precedes it is split into the same tokens. -/
lemma Scans.body {offset o : Nat} {cs : List Char} {ts : List PlacedToken}
    (h : Scans offset cs (ts ++ [⟨.symbol .semicolon, o⟩])) :
    ∃ body blanks, cs = body ++ ';' :: blanks ∧ o = offset + byteLength body ∧
      (∀ c ∈ blanks, Text.isBlank c = true) ∧
      ∀ rest, tokensOf? (body ++ ')' :: rest)
        = (tokensOf? (')' :: rest)).map (ts.map PlacedToken.token ++ ·) := by
  induction ts generalizing offset cs with
  | nil =>
    cases h with
    | @lexeme offset blanks l rest shape t more hblanks hshaped hlongest hdenotes hrest =>
      cases hrest with
      | done hafter =>
        cases shape_eq_of_denotes_symbol hdenotes
        cases hshaped
        refine ⟨blanks, rest, rfl, rfl, hafter, fun rest' => ?_⟩
        rw [tokensOf?_append_blanks hblanks]
        simp
  | cons t ts ih =>
    cases h with
    | @lexeme offset blanks l rest shape t more hblanks hshaped hlongest hdenotes hrest =>
      obtain ⟨body, after, rfl, ho, hafter, htokens⟩ := ih hrest
      have hends := hshaped.ends hlongest hrest.stops_point
      refine ⟨blanks ++ (l ++ body), after, by simp, ?_, hafter, fun rest' => ?_⟩
      · rw [ho]
        simp only [byteLength_append]
        omega
      · -- the lexeme ends where it did: before the body, or before the parenthesis
        have hends' : Ends shape (body ++ ')' :: rest') := by
          cases body with
          | nil => exact ends_closeParen shape rest'
          | cons c cs =>
            refine hends.of_head? ?_
            rfl
        rw [List.append_assoc, tokensOf?_append_blanks hblanks, List.append_assoc,
          tokensOf?_append_lexeme hshaped hends' hdenotes, htokens, Option.map_map]
        rfl

/-- The first characters of a text, up to the given number of bytes. -/
def takeBytes : Nat → List Char → List Char
  | 0, _ => []
  | _, [] => []
  | n + 1, c :: cs => c :: takeBytes (n + 1 - c.utf8Size) cs

lemma takeBytes_byteLength (cs rest : List Char) : takeBytes (byteLength cs) (cs ++ rest) = cs := by
  induction cs with
  | nil => rw [byteLength, takeBytes]
  | cons c cs ih =>
    obtain ⟨n, hn⟩ := Nat.exists_eq_add_of_lt (Nat.add_pos_left c.utf8Size_pos (byteLength cs))
    have hlength : byteLength (c :: cs) = n + 1 := by
      rw [byteLength]
      omega
    have htail : n + 1 - c.utf8Size = byteLength cs := by
      rw [← hlength, byteLength]
      omega
    rw [hlength, List.cons_append, takeBytes, htail, ih]

namespace Statement

/-- The text of a statement in front of its terminator, the last of its tokens. -/
def body (text : String) : String :=
  match tokenize 0 text.toList with
  | .ok tokens =>
    let offset := (tokens.getLast?.map PlacedToken.offset).getD 0
    String.ofList (takeBytes offset text.toList)
  | .error _ => ""

/-- The statement that negates a statement. -/
def negated (text : String) : String := "!(" ++ body text ++ ");"

/-- A statement is its body, the terminator and white space. -/
lemma body_spec {text : String} {us : List PlacedToken} {o : Nat}
    (h : tokenize 0 text.toList = .ok (us ++ [⟨.symbol .semicolon, o⟩])) :
    o = byteLength (body text).toList ∧
    (∃ blanks, text.toList = (body text).toList ++ ';' :: blanks ∧
      ∀ c ∈ blanks, Text.isBlank c = true) ∧
    ∀ rest, tokensOf? ((body text).toList ++ ')' :: rest)
      = (tokensOf? (')' :: rest)).map (us.map PlacedToken.token ++ ·) := by
  obtain ⟨chars, blanks, htext, ho, hblanks, htokens⟩ := (scans_of_tokenize h).body
  have hbody : (body text).toList = chars := by
    have hlast : (us ++ [(⟨.symbol .semicolon, o⟩ : PlacedToken)]).getLast?
        = some ⟨.symbol .semicolon, o⟩ := List.getLast?_concat
    rw [body, h]
    simp only [hlast, Option.map_some, Option.getD_some, String.toList_ofList]
    rw [ho, Nat.zero_add, htext, takeBytes_byteLength]
  rw [hbody]
  exact ⟨by rw [ho, Nat.zero_add], ⟨blanks, htext, hblanks⟩, htokens⟩

/-- The tokens of the negated statement. -/
lemma tokensOf?_negated {text : String} {us : List PlacedToken} {o : Nat}
    (h : tokenize 0 text.toList = .ok (us ++ [⟨.symbol .semicolon, o⟩])) :
    tokensOf? (negated text).toList
      = some (.symbol .bang :: .symbol .openParen :: (us.map PlacedToken.token
          ++ [.symbol .closeParen]) ++ [.symbol .semicolon]) := by
  obtain ⟨-, -, htokens⟩ := body_spec h
  have hclose : tokensOf? [')', ';'] = some [.symbol .closeParen, .symbol .semicolon] := by
    decide +kernel
  have hnegated : (negated text).toList = Symbol.bang.spelling ++ (Symbol.openParen.spelling
      ++ ((body text).toList ++ ')' :: [';'])) := by
    simp [negated, Symbol.spelling]
  rw [hnegated, tokensOf?_symbol (ends_of_alone (by decide) _),
    tokensOf?_symbol (ends_of_alone (by decide) _), htokens, hclose]
  simp

/-- The tokens of a statement that compiles, the last of which is its terminator. -/
lemma exists_derives_of_compile {text : String} {s : Statement} (h : compile text = .ok s) :
    ∃ us o n, tokenize 0 text.toList = .ok (us ++ [⟨.symbol .semicolon, o⟩]) ∧
      Derives .disjunction n (us.map PlacedToken.token) s.expr := by
  obtain ⟨hparse, -⟩ := compile_eq_ok_iff.1 h
  obtain ⟨tokens, htokens, hexpr⟩ := Expr.parse_eq_ok_iff.1 hparse
  obtain ⟨n, ⟨ts, hts, hd⟩, -, -⟩ := Expr.ofTokens_eq_ok_iff.1 hexpr
  obtain ⟨us, last, rfl, hus, hlast⟩ := List.map_eq_append_iff.1 hts
  obtain ⟨⟨t, o⟩, rfl, ht⟩ := List.map_eq_singleton_iff.1 hlast
  obtain rfl : t = .symbol .semicolon := ht
  exact ⟨us, o, n, htokens, by rw [hus]; exact hd⟩

/-- The negated statement compiles to the negated expression, unless that is too deep. -/
lemma compile_negated {text : String} {s : Statement} (h : compile text = .ok s) :
    compile (negated text) = .ok ⟨negated text, .unary .not s.expr⟩ ∨
      ∃ err, compile (negated text) = .error err ∧ err.fault.error = .tooDeep := by
  obtain ⟨us, o, n, htokens, hd⟩ := exists_derives_of_compile h
  obtain ⟨tokens, htokens', hmap⟩ := tokensOf?_eq_some_iff.1 (tokensOf?_negated htokens)
  have hderives : DerivesStatement (n + 2) (tokens.map PlacedToken.token)
      (.unary .not s.expr) := by
    have hnegation := Derives.unary .bang ((Derives.paren hd).of_le (Level.le_operand _))
    exact ⟨_, hmap, hnegation.of_le (Level.disjunction_le _)⟩
  rw [compile, Expr.parse_eq_of_tokenize htokens']
  rcases hexpr : Expr.ofTokens (byteLength (negated text).toList) tokens with fault | e
  · exact Or.inr ⟨_, rfl, tooDeep_of_derivable ⟨_, _, hderives⟩ hexpr⟩
  · obtain ⟨k, hd', -, -⟩ := Expr.ofTokens_eq_ok_iff.1 hexpr
    rw [hd'.unique hderives]
    exact Or.inl rfl

end Statement

end GuardedMachine
