/-
# From characters to tokens

Guard text is a sequence of lexemes with white space around them.  A lexeme is a path, a
string, a number, a word or a symbol, which its first character decides, and it extends as
far as its kind allows.

Each reader below takes the text from the first character of its lexeme on and splits it into
the characters of the lexeme and the rest; nothing is dropped (`append_eq_of_lexeme`).
The whole text is split by `tokenize`, which places every token at its byte offset.
-/
import GuardedMachine.Statement.SyntaxError

namespace GuardedMachine

/-- A token, the characters it is written with, and the characters after it. -/
structure Lexeme where
  /-- The token. -/
  token : Token
  /-- The characters of the lexeme. -/
  chars : List Char
  /-- The characters after it. -/
  rest : List Char

namespace Lexeme

/-- Whether a character may stand in a word or in a segment of a path. -/
def isWordChar (c : Char) : Bool := c.isAlphanum || c == '_'

/-- Whether a word may start with a character. -/
def isWordStart (c : Char) : Bool := c.isAlpha || c == '_'

/-- The parts of a text between its points. -/
def splitAtPoints : List Char → List (List Char)
  | [] => [[]]
  | '.' :: cs => [] :: splitAtPoints cs
  | c :: cs =>
    match splitAtPoints cs with
    | [] => [[c]]
    | part :: parts => (c :: part) :: parts

/-- A path at the given offset: the sigil and all word characters and points after it. -/
def path (scope : Scope) (offset : Nat) (cs : List Char) : Except Fault Lexeme :=
  let body := cs.takeWhile fun c => isWordChar c || c == '.'
  match body with
  | '.' :: names =>
    let segments := splitAtPoints names
    if segments.any List.isEmpty then
      .error ⟨offset, .malformedPath .emptySegment⟩
    else
      .ok ⟨.path ⟨scope, segments.map String.ofList⟩, scope.sigil :: body,
        cs.dropWhile fun c => isWordChar c || c == '.'⟩
  | _ => .error ⟨offset, .malformedPath .missingPoint⟩

/-- The contents of a string after its opening quote: the characters they stand for, the
characters they are written with up to the closing quote, and the rest.  An escape of any
other character than the quote and the backslash is an error there, and a missing closing
quote one at the start of the string. -/
def stringBody (start : Nat) :
    (offset : Nat) → List Char → Except Fault (List Char × List Char × List Char)
  | _, [] => .error ⟨start, .unterminatedString⟩
  | _, '"' :: rest => .ok ([], ['"'], rest)
  | _, ['\\'] => .error ⟨start, .unterminatedString⟩
  | offset, '\\' :: c :: cs =>
    if c = '"' ∨ c = '\\' then
      (stringBody start (offset + 2) cs).map fun (contents, written, rest) =>
        (c :: contents, '\\' :: c :: written, rest)
    else
      .error ⟨offset + 1, .unexpectedChar c⟩
  | offset, c :: cs =>
    (stringBody start (offset + c.utf8Size) cs).map fun (contents, written, rest) =>
      (c :: contents, c :: written, rest)

/-- A string at the given offset, from the character after its opening quote. -/
def string (offset : Nat) (cs : List Char) : Except Fault Lexeme :=
  (stringBody offset (offset + 1) cs).map fun (contents, written, rest) =>
    ⟨.literal (.string (String.ofList contents)), '"' :: written, rest⟩

/-- A number at the given offset: digits, and a point and digits if a point follows.  It must
be a decimal as it stands. -/
def number (offset : Nat) (cs : List Char) : Except Fault Lexeme :=
  let whole := cs.takeWhile Char.isDigit
  let ofParts (fraction written rest : List Char) : Except Fault Lexeme :=
    match Decimal.ofDigits? false whole fraction with
    | some d => .ok ⟨.literal (.decimal d), written, rest⟩
    | none => .error ⟨offset, .invalidNumber (String.ofList written)⟩
  match cs.dropWhile Char.isDigit with
  | '.' :: after =>
    let fraction := after.takeWhile Char.isDigit
    let written := whole ++ '.' :: fraction
    if fraction.isEmpty then
      .error ⟨offset, .invalidNumber (String.ofList written)⟩
    else
      ofParts fraction written (after.dropWhile Char.isDigit)
  | rest => ofParts [] whole rest

/-- The value that a word stands for. -/
def wordValue? (word : String) : Option Value :=
  match word with
  | "null" => some .null
  | "true" => some (.bool true)
  | "false" => some (.bool false)
  | _ => none

/-- A word at the given offset. -/
def word (offset : Nat) (cs : List Char) : Except Fault Lexeme :=
  let chars := cs.takeWhile isWordChar
  match wordValue? (String.ofList chars) with
  | some v => .ok ⟨.literal v, chars, cs.dropWhile isWordChar⟩
  | none => .error ⟨offset, .unknownIdentifier (String.ofList chars)⟩

/-- A symbol at the given offset, where the text starts with the character `c`. -/
def symbol (offset : Nat) (c : Char) (cs : List Char) : Except Fault Lexeme :=
  match Symbol.startOf? (c :: cs) with
  | some s => .ok ⟨.symbol s, s.spelling, (c :: cs).drop s.spelling.length⟩
  | none => .error ⟨offset, .unexpectedChar c⟩

/-- The first lexeme of a text that starts with the character `c`. -/
def first (offset : Nat) (c : Char) (cs : List Char) : Except Fault Lexeme :=
  if c = '#' then path .subject offset cs
  else if c = '$' then path .context offset cs
  else if c = '"' then string offset cs
  else if c.isDigit then number offset (c :: cs)
  else if isWordStart c then word offset (c :: cs)
  else symbol offset c cs

/-! ## Nothing is dropped -/

theorem append_eq_of_path {scope : Scope} {offset : Nat} {cs : List Char} {l : Lexeme}
    (h : path scope offset cs = .ok l) :
    l.chars ++ l.rest = scope.sigil :: cs ∧ l.chars ≠ [] := by
  simp only [path] at h
  split at h
  · split at h
    · cases h
    · cases h
      simp
  · cases h

theorem append_eq_of_stringBody {start offset : Nat} {cs contents written rest : List Char}
    (h : stringBody start offset cs = .ok (contents, written, rest)) :
    written ++ rest = cs := by
  fun_induction stringBody start offset cs generalizing contents written rest with
  | case1 => cases h
  | case2 => cases h; rfl
  | case3 => cases h
  | case4 offset c cs hc ih =>
    cases hb : stringBody start (offset + 2) cs with
    | error e => simp [hb, Except.map] at h
    | ok triple =>
      obtain ⟨u, v, w⟩ := triple
      simp only [hb, Except.map, Except.ok.injEq, Prod.mk.injEq] at h
      obtain ⟨-, rfl, rfl⟩ := h
      simp [ih hb]
  | case5 => cases h
  | case6 offset c cs _ _ _ ih =>
    cases hb : stringBody start (offset + c.utf8Size) cs with
    | error e => simp [hb, Except.map] at h
    | ok triple =>
      obtain ⟨u, v, w⟩ := triple
      simp only [hb, Except.map, Except.ok.injEq, Prod.mk.injEq] at h
      obtain ⟨-, rfl, rfl⟩ := h
      simp [ih hb]

theorem append_eq_of_string {offset : Nat} {cs : List Char} {l : Lexeme}
    (h : string offset cs = .ok l) : l.chars ++ l.rest = '"' :: cs ∧ l.chars ≠ [] := by
  simp only [string] at h
  cases hb : stringBody offset (offset + 1) cs with
  | error e => simp [hb, Except.map] at h
  | ok triple =>
    obtain ⟨u, v, w⟩ := triple
    simp only [hb, Except.map, Except.ok.injEq] at h
    subst h
    simp [append_eq_of_stringBody hb]

theorem append_eq_of_number {offset : Nat} {cs : List Char} {l : Lexeme}
    (h : number offset cs = .ok l) : l.chars ++ l.rest = cs := by
  have split_eq := List.takeWhile_append_dropWhile (p := Char.isDigit) (l := cs)
  simp only [number] at h
  split at h
  · rename_i after heq
    split at h
    · cases h
    · split at h
      · cases h
        rw [heq] at split_eq
        simpa [List.takeWhile_append_dropWhile] using split_eq
      · cases h
  · split at h
    · cases h
      exact split_eq
    · cases h

theorem append_eq_of_word {offset : Nat} {cs : List Char} {l : Lexeme}
    (h : word offset cs = .ok l) : l.chars ++ l.rest = cs := by
  simp only [word] at h
  split at h
  · cases h
    exact List.takeWhile_append_dropWhile
  · cases h

theorem append_eq_of_symbol {offset : Nat} {c : Char} {cs : List Char} {l : Lexeme}
    (h : symbol offset c cs = .ok l) : l.chars ++ l.rest = c :: cs ∧ l.chars ≠ [] := by
  simp only [symbol] at h
  split at h
  · rename_i s hs
    cases h
    have hp : s.spelling <+: c :: cs :=
      List.isPrefixOf_iff_prefix.1 (by simpa using List.find?_some hs)
    obtain ⟨rest, hrest⟩ := hp
    refine ⟨?_, s.spelling_ne_nil⟩
    simp [← hrest]
  · cases h

/-- A lexeme is a non-empty part of the text, and its rest is the rest of the text. -/
theorem append_eq_of_first {offset : Nat} {c : Char} {cs : List Char} {l : Lexeme}
    (h : first offset c cs = .ok l) : l.chars ++ l.rest = c :: cs ∧ l.chars ≠ [] := by
  have ne_nil {l : Lexeme} (hne : ∃ p, p c = true ∧ l.chars = (c :: cs).takeWhile p) :
      l.chars ≠ [] := by
    obtain ⟨p, hp, heq⟩ := hne
    simp [heq, hp]
  simp only [first] at h
  split at h
  · rename_i hc
    exact hc ▸ append_eq_of_path h
  split at h
  · rename_i hc
    exact hc ▸ append_eq_of_path h
  split at h
  · rename_i hc
    exact hc ▸ append_eq_of_string h
  split at h
  · rename_i hc
    refine ⟨append_eq_of_number h, ?_⟩
    simp only [number] at h
    split at h
    · split at h
      · cases h
      · split at h
        · cases h
          simp
        · cases h
    · split at h
      · cases h
        simp [hc]
      · cases h
  split at h
  · rename_i hc
    refine ⟨append_eq_of_word h, ?_⟩
    simp only [word] at h
    split at h
    · cases h
      refine ne_nil (l := ⟨_, _, _⟩) ⟨isWordChar, ?_, rfl⟩
      simp only [isWordStart, isWordChar, Char.isAlphanum, Bool.or_eq_true] at hc ⊢
      exact hc.imp_left Or.inl
    · cases h
  · exact append_eq_of_symbol h

theorem length_rest_lt_of_first {offset : Nat} {c : Char} {cs : List Char} {l : Lexeme}
    (h : first offset c cs = .ok l) : l.rest.length < (c :: cs).length := by
  obtain ⟨heq, hne⟩ := append_eq_of_first h
  have hpos : 0 < l.chars.length := List.length_pos_iff.2 hne
  rw [← heq, List.length_append]
  omega

end Lexeme

/-- The tokens of a text whose first character is at the given byte offset. -/
def tokenize (offset : Nat) (cs : List Char) : Except Fault (List PlacedToken) :=
  match cs with
  | [] => .ok []
  | c :: cs =>
    if Text.isBlank c then
      tokenize (offset + c.utf8Size) cs
    else
      match h : Lexeme.first offset c cs with
      | .error fault => .error fault
      | .ok l =>
        have := Lexeme.length_rest_lt_of_first h
        (tokenize (offset + byteLength l.chars) l.rest).map (⟨l.token, offset⟩ :: ·)
termination_by cs.length
decreasing_by
  · simp
  · simpa using this

end GuardedMachine
