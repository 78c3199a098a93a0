/-
# The forms of lexemes

    path    := ( '#' | '$' ) ( '.' segment )+       segment := [A-Za-z0-9_]+
    string  := '"' ( character | '\"' | '\\' )* '"'
    number  := digit+ ( '.' digit+ )?
    word    := [A-Za-z_] [A-Za-z0-9_]*
    symbol  := one of the sixteen

A form says how a lexeme is written (`Shaped`), and apart from that which token it stands for,
if any (`Denotes`): every word has the form of a word, but only three of them denote something.
Where a lexeme of a form ends is a condition on the character after it (`Ends`).

The readers of lexemes are functions of their own, one for each form.  `first_eq_ok_iff` says
what all of them come to: the first lexeme of a text is read if and only if the text starts with
characters of some form that end there and denote a token.
-/
import Mathlib.Tactic.Lemma
import GuardedMachine.Statement.Lexer

namespace GuardedMachine

namespace Lexeme

/-! ## Forms -/

/-- What the characters of a lexeme are the form of. -/
inductive Shape
  /-- A path with its segments. -/
  | path (scope : Scope) (segments : List (List Char))
  /-- A string with the characters that it stands for. -/
  | string (contents : List Char)
  /-- The digits of a number before and after the point. -/
  | number (whole fraction : List Char)
  /-- A word. -/
  | word (chars : List Char)
  /-- A symbol. -/
  | symbol (s : Symbol)

/-- The segments of a path, each with the point in front of it. -/
def dotted (segments : List (List Char)) : List Char := segments.flatMap fun s => '.' :: s

/-- Digits, and a point with further digits if there are any. -/
def numeral (whole : List Char) : List Char → List Char
  | [] => whole
  | c :: cs => whole ++ '.' :: c :: cs

/-- `Quotes contents written`: between the quotes of a string, `written` stands for
`contents`. -/
inductive Quotes : List Char → List Char → Prop
  | nil : Quotes [] []
  | escaped {c : Char} {contents written : List Char} : c = '"' ∨ c = '\\' →
    Quotes contents written → Quotes (c :: contents) ('\\' :: c :: written)
  | plain {c : Char} {contents written : List Char} : c ≠ '"' → c ≠ '\\' →
    Quotes contents written → Quotes (c :: contents) (c :: written)

/-- `Shaped l shape`: the characters `l` have the form of a lexeme. -/
inductive Shaped : List Char → Shape → Prop
  | path {scope : Scope} {segments : List (List Char)} : segments ≠ [] →
    (∀ s ∈ segments, s ≠ [] ∧ ∀ c ∈ s, isWordChar c = true) →
      Shaped (scope.sigil :: dotted segments) (.path scope segments)
  | string {contents written : List Char} : Quotes contents written →
    Shaped ('"' :: (written ++ ['"'])) (.string contents)
  | number {whole fraction : List Char} : whole ≠ [] → (∀ c ∈ whole, c.isDigit = true) →
    (∀ c ∈ fraction, c.isDigit = true) → Shaped (numeral whole fraction) (.number whole fraction)
  | word {c : Char} {cs : List Char} : isWordStart c = true →
    (∀ d ∈ cs, isWordChar d = true) → Shaped (c :: cs) (.word (c :: cs))
  | symbol (s : Symbol) : Shaped s.spelling (.symbol s)

/-- `Denotes shape t`: a lexeme of the form stands for the token `t`. -/
inductive Denotes : Shape → Token → Prop
  | path {scope : Scope} {segments : List (List Char)} :
    Denotes (.path scope segments) (.path ⟨scope, segments.map String.ofList⟩)
  | string {contents : List Char} :
    Denotes (.string contents) (.literal (.string (String.ofList contents)))
  | number {whole fraction : List Char} {d : Decimal} : d.negative = false →
    d.mantissa = Nat.ofDigitChars 10 (whole ++ fraction) 0 → d.scale = fraction.length →
      Denotes (.number whole fraction) (.literal (.decimal d))
  | null : Denotes (.word ['n', 'u', 'l', 'l']) (.literal .null)
  | true : Denotes (.word ['t', 'r', 'u', 'e']) (.literal (.bool true))
  | false : Denotes (.word ['f', 'a', 'l', 's', 'e']) (.literal (.bool false))
  | symbol (s : Symbol) : Denotes (.symbol s) (.symbol s)

/-- The rest of a text does not start with a character of the class `p`. -/
def Stops (p : Char → Bool) (rest : List Char) : Prop := ∀ c ∈ rest.head?, p c = false

/-- `Ends shape rest`: a lexeme of the form does not go on in the rest of the text, and does not
start to. -/
def Ends : Shape → List Char → Prop
  | .path _ _, rest => Stops (fun c => isWordChar c || c == '.') rest
  | .string _, _ => True
  | .number _ [], rest => Stops (fun c => c.isDigit || c == '.') rest
  | .number _ (_ :: _), rest => Stops Char.isDigit rest
  | .word _, rest => Stops isWordChar rest
  | .symbol s, rest =>
    ∀ s' : Symbol, s'.spelling <+: s.spelling ++ rest → s'.spelling.length ≤ s.spelling.length

/-! ## Runs of characters -/

section Runs

variable {p : Char → Bool} {run rest : List Char}

lemma stops_nil (p : Char → Bool) : Stops p [] := by simp [Stops]

lemma stops_cons {c : Char} : Stops p (c :: rest) ↔ p c = false := by simp [Stops]

lemma stops_dropWhile (p : Char → Bool) (cs : List Char) : Stops p (cs.dropWhile p) := by
  intro c hc
  have h := List.head?_dropWhile_not p cs
  rw [Option.mem_def.1 hc] at h
  simpa using h

lemma takeWhile_append_of_stops (hrun : ∀ c ∈ run, p c = true) (hrest : Stops p rest) :
    (run ++ rest).takeWhile p = run := by
  rw [List.takeWhile_append_of_pos hrun]
  cases rest with
  | nil => simp
  | cons c cs => simp [stops_cons.1 hrest]

lemma dropWhile_append_of_stops (hrun : ∀ c ∈ run, p c = true) (hrest : Stops p rest) :
    (run ++ rest).dropWhile p = rest := by
  rw [List.dropWhile_append_of_pos hrun]
  cases rest with
  | nil => rfl
  | cons c cs => simp [stops_cons.1 hrest]

lemma of_mem_takeWhile {c : Char} {cs : List Char} (h : c ∈ cs.takeWhile p) : p c = true :=
  List.all_eq_true.1 List.all_takeWhile c h

end Runs

/-! ## The first character decides the form -/

/-- The forms apart from what is written. -/
inductive Kind
  | path (scope : Scope)
  | string
  | number
  | word
  | symbol

/-- The form of what starts with a character. -/
def Kind.ofStart (c : Char) : Kind :=
  if c = '#' then .path .subject
  else if c = '$' then .path .context
  else if c = '"' then .string
  else if c.isDigit then .number
  else if isWordStart c then .word
  else .symbol

/-- The form that a lexeme has. -/
def Shape.kind : Shape → Kind
  | .path scope _ => .path scope
  | .string _ => .string
  | .number _ _ => .number
  | .word _ => .word
  | .symbol _ => .symbol

lemma toNat_of_isDigit {c : Char} (h : c.isDigit = true) : 48 ≤ c.toNat ∧ c.toNat ≤ 57 :=
  Char.isDigit_iff_toNat.1 h

lemma toNat_of_isWordStart {c : Char} (h : isWordStart c = true) :
    65 ≤ c.toNat ∧ c.toNat ≤ 90 ∨ 97 ≤ c.toNat ∧ c.toNat ≤ 122 ∨ c.toNat = 95 := by
  have toNat_le {x y : UInt32} (hxy : x ≤ y) : x.toNat ≤ y.toNat := UInt32.le_iff_toNat_le.1 hxy
  rcases Bool.or_eq_true_iff.1 h with hletter | hunderscore
  · rcases Bool.or_eq_true_iff.1 hletter with hupper | hlower
    · exact Or.inl ((of_decide_eq_true hupper).imp toNat_le toNat_le)
    · obtain ⟨hle, hge⟩ := Bool.and_eq_true_iff.1 hlower
      exact Or.inr (Or.inl ⟨toNat_le (of_decide_eq_true hle), toNat_le (of_decide_eq_true hge)⟩)
  · exact Or.inr (Or.inr (congrArg Char.toNat (eq_of_beq hunderscore)))

lemma Kind.ofStart_sigil (scope : Scope) : ofStart scope.sigil = .path scope := by
  cases scope <;> rfl

lemma Kind.ofStart_of_isDigit {c : Char} (h : c.isDigit = true) : ofStart c = .number := by
  have hc := toNat_of_isDigit h
  have ne {d : Char} (hd : d.toNat < 48) : c ≠ d := by
    rintro rfl
    omega
  rw [ofStart, if_neg (ne (by decide)), if_neg (ne (by decide)), if_neg (ne (by decide)), if_pos h]

lemma Kind.ofStart_of_isWordStart {c : Char} (h : isWordStart c = true) : ofStart c = .word := by
  have hc := toNat_of_isWordStart h
  have ne {d : Char} (hd : d.toNat < 48) : c ≠ d := by
    rintro rfl
    omega
  have hdigit : ¬ c.isDigit = true := by
    intro hdigit
    have := toNat_of_isDigit hdigit
    omega
  rw [ofStart, if_neg (ne (by decide)), if_neg (ne (by decide)), if_neg (ne (by decide)),
    if_neg hdigit, if_pos h]

/-- The first character of a lexeme says which form it has. -/
lemma Shaped.kind_eq {c : Char} {cs : List Char} {shape : Shape} (h : Shaped (c :: cs) shape) :
    shape.kind = Kind.ofStart c := by
  generalize hl : c :: cs = l at h
  cases h with
  | path =>
    cases hl
    exact (Kind.ofStart_sigil _).symm
  | string =>
    cases hl
    rfl
  | @number whole fraction hne hwhole _ =>
    obtain ⟨d, ds, rfl⟩ := List.exists_cons_of_ne_nil hne
    have hd : c = d := by cases fraction <;> exact (List.cons.inj hl).1
    exact (Kind.ofStart_of_isDigit (hd ▸ hwhole d (by simp))).symm
  | word hstart =>
    cases hl
    exact (Kind.ofStart_of_isWordStart hstart).symm
  | symbol s => cases s <;> cases hl <;> rfl

lemma Shaped.ne_nil {l : List Char} {shape : Shape} (h : Shaped l shape) : l ≠ [] := by
  cases h with
  | path => simp
  | string => simp
  | @number whole fraction hne =>
    cases fraction with
    | nil => exact hne
    | cons => simp [numeral]
  | word => simp
  | symbol s => exact s.spelling_ne_nil

lemma isBlank_eq_false_of_toNat {c : Char} (h : 33 ≤ c.toNat ∧ c.toNat ≤ 126) :
    Text.isBlank c = false := by
  rw [Bool.eq_false_iff]
  intro hblank
  simp only [Text.isBlank, Text.inRanges, Text.blankRanges, List.any_cons, List.any_nil,
    Bool.or_eq_true, Bool.and_eq_true, decide_eq_true_eq, Bool.false_eq_true, or_false] at hblank
  omega

/-- No lexeme starts with white space. -/
lemma Shaped.isBlank_eq_false {c : Char} {cs : List Char} {shape : Shape}
    (h : Shaped (c :: cs) shape) : Text.isBlank c = false := by
  generalize hl : c :: cs = l at h
  cases h with
  | @path scope =>
    cases hl
    cases scope <;> decide
  | string =>
    cases hl
    decide
  | @number whole fraction hne hwhole _ =>
    obtain ⟨d, ds, rfl⟩ := List.exists_cons_of_ne_nil hne
    have hd : c = d := by cases fraction <;> exact (List.cons.inj hl).1
    have := toNat_of_isDigit (hd ▸ hwhole d (by simp))
    exact isBlank_eq_false_of_toNat (by omega)
  | word hstart =>
    cases hl
    have := toNat_of_isWordStart hstart
    exact isBlank_eq_false_of_toNat (by omega)
  | symbol s => cases s <;> cases hl <;> decide

/-- No lexeme starts with a point. -/
lemma Shaped.ne_point {c : Char} {cs : List Char} {shape : Shape} (h : Shaped (c :: cs) shape) :
    c ≠ '.' := by
  rintro rfl
  have hkind : shape.kind = .symbol := h.kind_eq
  generalize hl : '.' :: cs = l at h
  cases h <;> cases hkind
  case symbol s => cases s <;> cases hl

/-- The reader for the form of the first character is the one that is used. -/
lemma first_eq (offset : Nat) (c : Char) (cs : List Char) :
    first offset c cs = match Kind.ofStart c with
      | .path scope => path scope offset cs
      | .string => string offset cs
      | .number => number offset (c :: cs)
      | .word => word offset (c :: cs)
      | .symbol => symbol offset c cs := by
  simp only [first, Kind.ofStart]
  split
  · rfl
  split
  · rfl
  split
  · rfl
  split
  · rfl
  split <;> rfl

/-! ## Paths -/

lemma dotted_splitAtPoints (cs : List Char) : dotted (splitAtPoints cs) = '.' :: cs := by
  fun_induction splitAtPoints cs with
  | case1 => rfl
  | case2 cs ih =>
    rw [dotted, List.flatMap_cons]
    exact congrArg ('.' :: ·) ih
  | case3 c cs _ hnil ih =>
    rw [hnil] at ih
    cases ih
  | case4 c cs _ part parts hparts ih =>
    rw [hparts, dotted, List.flatMap_cons] at ih
    rw [dotted, List.flatMap_cons]
    have h : part ++ parts.flatMap (fun s => '.' :: s) = cs := (List.cons.inj ih).2
    rw [List.cons_append, List.cons_append, h]

lemma splitAtPoints_ne_nil (cs : List Char) : splitAtPoints cs ≠ [] := by
  intro h
  have hdotted := dotted_splitAtPoints cs
  rw [h] at hdotted
  cases hdotted

/-- The parts have the characters of the text, without the points. -/
lemma of_mem_splitAtPoints {cs part : List Char} (hpart : part ∈ splitAtPoints cs) {c : Char}
    (hc : c ∈ part) : c ∈ cs ∧ c ≠ '.' := by
  fun_induction splitAtPoints cs generalizing part with
  | case1 =>
    obtain rfl := List.mem_singleton.1 hpart
    cases hc
  | case2 cs ih =>
    rcases List.mem_cons.1 hpart with rfl | hpart
    · cases hc
    · obtain ⟨hmem, hne⟩ := ih hpart hc
      exact ⟨List.mem_cons_of_mem _ hmem, hne⟩
  | case3 d cs _ hnil => exact absurd hnil (splitAtPoints_ne_nil cs)
  | case4 d cs hd first parts hparts ih =>
    rw [hparts] at ih
    rcases List.mem_cons.1 hpart with rfl | hpart
    · rcases List.mem_cons.1 hc with rfl | hc
      · exact ⟨List.mem_cons_self, hd⟩
      · obtain ⟨hmem, hne⟩ := ih List.mem_cons_self hc
        exact ⟨List.mem_cons_of_mem _ hmem, hne⟩
    · obtain ⟨hmem, hne⟩ := ih (List.mem_cons_of_mem _ hpart) hc
      exact ⟨List.mem_cons_of_mem _ hmem, hne⟩

/-- A part without a point, in front of a text that is empty or starts with a point. -/
lemma splitAtPoints_append {part cs : List Char} {parts : List (List Char)}
    (hpart : ∀ c ∈ part, c ≠ '.') (h : splitAtPoints cs = [] :: parts) :
    splitAtPoints (part ++ cs) = part :: parts := by
  induction part with
  | nil => exact h
  | cons c part ih =>
    have hc : c ≠ '.' := hpart c List.mem_cons_self
    have hrest := ih fun d hd => hpart d (List.mem_cons_of_mem _ hd)
    rw [List.cons_append, splitAtPoints, hrest]
    exact hc

lemma splitAtPoints_append_dotted {part : List Char} {parts : List (List Char)}
    (h : ∀ s ∈ part :: parts, ∀ c ∈ s, c ≠ '.') :
    splitAtPoints (part ++ dotted parts) = part :: parts := by
  induction parts generalizing part with
  | nil => exact splitAtPoints_append (h part List.mem_cons_self) rfl
  | cons next parts ih =>
    have hnext := ih fun s hs => h s (List.mem_cons_of_mem _ hs)
    refine splitAtPoints_append (h part List.mem_cons_self) ?_
    rw [dotted, List.flatMap_cons, List.cons_append, splitAtPoints]
    exact congrArg ([] :: ·) hnext

lemma ne_point_of_isWordChar {c : Char} (h : isWordChar c = true) : c ≠ '.' := by
  rintro rfl
  cases h

lemma isWordChar_or_point_of_mem_dotted {segments : List (List Char)}
    (h : ∀ s ∈ segments, s ≠ [] ∧ ∀ c ∈ s, isWordChar c = true) :
    ∀ c ∈ dotted segments, (isWordChar c || c == '.') = true := by
  intro c hc
  obtain ⟨s, hs, hc⟩ := List.mem_flatMap.1 hc
  rcases List.mem_cons.1 hc with rfl | hc
  · rfl
  · rw [(h s hs).2 c hc, Bool.true_or]

lemma shaped_of_path {scope : Scope} {offset : Nat} {cs : List Char} {x : Lexeme}
    (h : path scope offset cs = .ok x) :
    ∃ shape, Shaped x.chars shape ∧ Ends shape x.rest ∧ Denotes shape x.token := by
  simp only [path] at h
  split at h
  · rename_i names hbody
    split at h
    · cases h
    · rename_i hfull
      cases h
      have hchars : dotted (splitAtPoints names) = cs.takeWhile fun c => isWordChar c || c == '.' :=
        (dotted_splitAtPoints names).trans hbody.symm
      refine ⟨.path scope (splitAtPoints names), ?_, stops_dropWhile _ cs, .path⟩
      rw [← hchars]
      refine .path (splitAtPoints_ne_nil names) fun s hs => ⟨?_, fun c hc => ?_⟩
      · rintro rfl
        exact hfull (List.any_eq_true.2 ⟨[], hs, rfl⟩)
      · -- a character of the body is a word character or a point
        obtain ⟨hmem, hne⟩ := of_mem_splitAtPoints hs hc
        have hc : c ∈ cs.takeWhile fun c => isWordChar c || c == '.' :=
          hbody ▸ List.mem_cons_of_mem _ hmem
        have hclass := of_mem_takeWhile hc
        simpa [hne] using hclass
  · cases h

lemma path_of_shaped {scope : Scope} {segments : List (List Char)} {rest : List Char}
    (hne : segments ≠ []) (hsegments : ∀ s ∈ segments, s ≠ [] ∧ ∀ c ∈ s, isWordChar c = true)
    (hrest : Ends (.path scope segments) rest) (offset : Nat) :
    path scope offset (dotted segments ++ rest)
      = .ok ⟨.path ⟨scope, segments.map String.ofList⟩, scope.sigil :: dotted segments, rest⟩ := by
  obtain ⟨s, more, rfl⟩ := List.exists_cons_of_ne_nil hne
  have hclass := isWordChar_or_point_of_mem_dotted hsegments
  have hbody : (dotted (s :: more) ++ rest).takeWhile (fun c => isWordChar c || c == '.')
      = '.' :: (s ++ dotted more) := takeWhile_append_of_stops hclass hrest
  have hafter : (dotted (s :: more) ++ rest).dropWhile (fun c => isWordChar c || c == '.')
      = rest := dropWhile_append_of_stops hclass hrest
  have hsplit : splitAtPoints (s ++ dotted more) = s :: more :=
    splitAtPoints_append_dotted fun t ht c hc => ne_point_of_isWordChar ((hsegments t ht).2 c hc)
  have hfull : ¬ (s :: more).any List.isEmpty = true := by
    intro hany
    obtain ⟨t, ht, hempty⟩ := List.any_eq_true.1 hany
    exact (hsegments t ht).1 (List.isEmpty_iff.1 hempty)
  simp only [path, hbody, hafter, hsplit, if_neg hfull]
  rfl

/-! ## Strings -/

lemma quotes_of_stringBody {start offset : Nat} {cs contents written rest : List Char}
    (h : stringBody start offset cs = .ok (contents, written, rest)) :
    ∃ w, written = w ++ ['"'] ∧ Quotes contents w := by
  fun_induction stringBody start offset cs generalizing contents written rest with
  | case1 => cases h
  | case2 =>
    cases h
    exact ⟨[], rfl, .nil⟩
  | case3 => cases h
  | case4 offset c cs hc ih =>
    rcases hbody : stringBody start (offset + 2) cs with _ | ⟨u, v, w⟩ <;> rw [hbody] at h
    · cases h
    · cases h
      obtain ⟨v, rfl, hv⟩ := ih hbody
      exact ⟨'\\' :: c :: v, rfl, .escaped hc hv⟩
  | case5 => cases h
  | case6 offset c cs hquote hlast hescape ih =>
    rcases hbody : stringBody start (offset + c.utf8Size) cs with _ | ⟨u, v, w⟩ <;> rw [hbody] at h
    · cases h
    · cases h
      obtain ⟨v, rfl, hv⟩ := ih hbody
      refine ⟨c :: v, rfl, .plain hquote (fun hc => ?_) hv⟩
      -- a backslash would have been the last character, or the start of an escape
      rcases cs with _ | ⟨d, ds⟩
      · exact hlast hc rfl
      · exact hescape d ds hc rfl

lemma stringBody_of_quotes {contents written : List Char} (h : Quotes contents written)
    (start offset : Nat) (rest : List Char) :
    stringBody start offset (written ++ '"' :: rest) = .ok (contents, written ++ ['"'], rest) := by
  induction h generalizing offset with
  | nil => rfl
  | @escaped c contents written hc _ ih =>
    rw [List.cons_append, List.cons_append, stringBody, if_pos hc, ih]
    rfl
  | @plain c contents written hquote hbackslash _ ih =>
    rw [List.cons_append, stringBody, ih]
    · rfl
    · exact hquote
    · exact fun hc => absurd hc hbackslash
    · exact fun _ _ hc => absurd hc hbackslash

lemma shaped_of_string {offset : Nat} {cs : List Char} {x : Lexeme}
    (h : string offset cs = .ok x) :
    ∃ shape, Shaped x.chars shape ∧ Ends shape x.rest ∧ Denotes shape x.token := by
  rw [string] at h
  rcases hbody : stringBody offset (offset + 1) cs with _ | ⟨contents, written, rest⟩ <;>
    rw [hbody] at h
  · cases h
  · cases h
    obtain ⟨w, rfl, hw⟩ := quotes_of_stringBody hbody
    exact ⟨.string contents, .string hw, trivial, .string⟩

lemma string_of_quotes {contents written : List Char} (h : Quotes contents written) (offset : Nat)
    (rest : List Char) :
    string offset (written ++ '"' :: rest)
      = .ok ⟨.literal (.string (String.ofList contents)), '"' :: (written ++ ['"']), rest⟩ := by
  rw [string, stringBody_of_quotes h]
  rfl

/-! ## Numbers -/

lemma ofDigits?_eq_some_iff {whole fraction : List Char} {d : Decimal} :
    Decimal.ofDigits? false whole fraction = some d ↔
      d.negative = false ∧ d.mantissa = Nat.ofDigitChars 10 (whole ++ fraction) 0 ∧
        d.scale = fraction.length := by
  obtain ⟨negative, mantissa, scale, hmantissa, hscale⟩ := d
  rw [Decimal.ofDigits?, Decimal.ofParts?]
  constructor
  · intro h
    split at h
    · cases h
      exact ⟨rfl, rfl, rfl⟩
    · cases h
  · rintro ⟨rfl, rfl, rfl⟩
    exact dif_pos ⟨hmantissa, hscale⟩

lemma denotes_of_ofDigits? {whole fraction : List Char} {d : Decimal}
    (h : Decimal.ofDigits? false whole fraction = some d) :
    Denotes (.number whole fraction) (.literal (.decimal d)) := by
  obtain ⟨hnegative, hmantissa, hscale⟩ := ofDigits?_eq_some_iff.1 h
  exact .number hnegative hmantissa hscale

lemma shaped_of_number {offset : Nat} {c : Char} {cs : List Char} {x : Lexeme}
    (hc : c.isDigit = true) (h : number offset (c :: cs) = .ok x) :
    ∃ shape, Shaped x.chars shape ∧ Ends shape x.rest ∧ Denotes shape x.token := by
  have hwhole : ∀ d ∈ (c :: cs).takeWhile Char.isDigit, d.isDigit = true :=
    fun d hd => of_mem_takeWhile hd
  have hne : (c :: cs).takeWhile Char.isDigit ≠ [] := by simp [hc]
  simp only [number] at h
  split at h
  · -- a point follows the digits
    rename_i after hafter
    split at h
    · cases h
    · rename_i hfraction
      split at h
      · rename_i d hd
        cases h
        obtain ⟨e, es, hes⟩ := List.exists_cons_of_ne_nil (fun hnil =>
          hfraction (List.isEmpty_iff.2 hnil) : after.takeWhile Char.isDigit ≠ [])
        refine ⟨.number ((c :: cs).takeWhile Char.isDigit) (after.takeWhile Char.isDigit),
          ?_, ?_, denotes_of_ofDigits? hd⟩
        · have hshaped : Shaped _ (.number _ (after.takeWhile Char.isDigit)) :=
            .number hne hwhole fun d hd => of_mem_takeWhile hd
          rw [hes] at hshaped ⊢
          exact hshaped
        · have hstops := stops_dropWhile Char.isDigit after
          rw [hes]
          exact hstops
      · cases h
  · rename_i hpoint
    split at h
    · rename_i d hd
      cases h
      have hshaped : Shaped (numeral ((c :: cs).takeWhile Char.isDigit) []) (.number _ []) :=
        .number hne hwhole fun _ hd => absurd hd List.not_mem_nil
      refine ⟨.number ((c :: cs).takeWhile Char.isDigit) [], hshaped, fun e he => ?_,
        denotes_of_ofDigits? hd⟩
      -- the character after the digits is no digit, and no point either
      have hdigit := stops_dropWhile Char.isDigit (c :: cs) e he
      have hpoint : e ≠ '.' := by
        rintro rfl
        obtain ⟨rest, hrest⟩ := List.head?_eq_some_iff.1 (Option.mem_def.1 he)
        exact hpoint rest hrest
      simp [hdigit, hpoint]
    · cases h

lemma number_of_shaped {whole fraction rest : List Char} {d : Decimal}
    (hwhole : ∀ c ∈ whole, c.isDigit = true) (hfraction : ∀ c ∈ fraction, c.isDigit = true)
    (hrest : Ends (.number whole fraction) rest)
    (hd : Decimal.ofDigits? false whole fraction = some d) (offset : Nat) :
    number offset (numeral whole fraction ++ rest)
      = .ok ⟨.literal (.decimal d), numeral whole fraction, rest⟩ := by
  have stops_point (cs : List Char) : Stops Char.isDigit ('.' :: cs) := stops_cons.2 rfl
  cases fraction with
  | nil =>
    have hdigit : Stops Char.isDigit rest := fun c hc => (Bool.or_eq_false_iff.1 (hrest c hc)).1
    have hpoint : ∀ cs, rest ≠ '.' :: cs := by
      rintro cs rfl
      cases stops_cons.1 hrest
    rw [numeral, number, takeWhile_append_of_stops hwhole hdigit,
      dropWhile_append_of_stops hwhole hdigit]
    -- no point follows, so only the digits are left
    simp only [hd]
  | cons c cs =>
    rw [numeral, number, List.append_assoc, List.cons_append,
      takeWhile_append_of_stops hwhole (stops_point _),
      dropWhile_append_of_stops hwhole (stops_point _)]
    simp only
    rw [takeWhile_append_of_stops hfraction hrest, dropWhile_append_of_stops hfraction hrest, hd]
    rfl

/-! ## Words -/

lemma isWordChar_of_isWordStart {c : Char} (h : isWordStart c = true) : isWordChar c = true := by
  simp only [isWordStart, isWordChar, Char.isAlphanum, Bool.or_eq_true] at h ⊢
  exact h.imp_left Or.inl

lemma denotes_of_wordValue? {chars : List Char} {v : Value}
    (h : wordValue? (String.ofList chars) = some v) : Denotes (.word chars) (.literal v) := by
  have ofList_eq {w : String} (hw : String.ofList chars = w) : chars = w.toList := by
    rw [← hw, String.toList_ofList]
  simp only [wordValue?] at h
  split at h
  · rename_i hw
    cases h
    exact ofList_eq hw ▸ .null
  · rename_i hw
    cases h
    exact ofList_eq hw ▸ .true
  · rename_i hw
    cases h
    exact ofList_eq hw ▸ .false
  · cases h

lemma shaped_of_word {offset : Nat} {c : Char} {cs : List Char} {x : Lexeme}
    (hc : isWordStart c = true) (h : word offset (c :: cs) = .ok x) :
    ∃ shape, Shaped x.chars shape ∧ Ends shape x.rest ∧ Denotes shape x.token := by
  have hchars : (c :: cs).takeWhile isWordChar = c :: cs.takeWhile isWordChar :=
    List.takeWhile_cons_of_pos (isWordChar_of_isWordStart hc)
  simp only [word, hchars] at h
  split at h
  · rename_i v hv
    cases h
    refine ⟨.word (c :: cs.takeWhile isWordChar), .word hc fun d hd => of_mem_takeWhile hd,
      stops_dropWhile isWordChar (c :: cs), denotes_of_wordValue? hv⟩
  · cases h

lemma word_of_shaped {chars rest : List Char} {v : Value}
    (hchars : ∀ c ∈ chars, isWordChar c = true) (hrest : Ends (.word chars) rest)
    (hv : wordValue? (String.ofList chars) = some v) (offset : Nat) :
    word offset (chars ++ rest) = .ok ⟨.literal v, chars, rest⟩ := by
  rw [word, takeWhile_append_of_stops hchars hrest, dropWhile_append_of_stops hchars hrest]
  simp only [hv]

/-! ## Symbols -/

lemma spelling_injective {s t : Symbol} (h : s.spelling = t.spelling) : s = t := by
  cases s <;> cases t <;> first | rfl | cases h

/-- The symbols are tried from the longest to the shortest. -/
lemma pairwise_all : Symbol.all.Pairwise fun s t => t.spelling.length ≤ s.spelling.length := by
  decide

lemma startOf?_eq_some_iff {s : Symbol} {cs : List Char} :
    Symbol.startOf? cs = some s ↔ s.spelling <+: cs ∧
      ∀ t : Symbol, t.spelling <+: cs → t.spelling.length ≤ s.spelling.length := by
  have longest {s : Symbol} (h : Symbol.startOf? cs = some s) : s.spelling <+: cs ∧
      ∀ t : Symbol, t.spelling <+: cs → t.spelling.length ≤ s.spelling.length := by
    obtain ⟨hs, earlier, later, hall, hearlier⟩ := List.find?_eq_some_iff_append.1 h
    refine ⟨List.isPrefixOf_iff_prefix.1 hs, fun t ht => ?_⟩
    have hmem : t ∈ earlier ++ s :: later := hall ▸ t.mem_all
    rcases List.mem_append.1 hmem with hmem | hmem
    · have hnot := hearlier t hmem
      rw [List.isPrefixOf_iff_prefix.2 ht] at hnot
      cases hnot
    · rcases List.mem_cons.1 hmem with rfl | hmem
      · exact Nat.le_refl _
      · have hpairwise := pairwise_all
        rw [hall, List.pairwise_append] at hpairwise
        exact List.rel_of_pairwise_cons hpairwise.2.1 hmem
  constructor
  · exact longest
  · rintro ⟨hs, hlongest⟩
    -- some symbol is found, and both are the longest one
    rcases hstart : Symbol.startOf? cs with _ | t
    · have hnone := List.find?_eq_none.1 hstart s s.mem_all
      exact absurd (List.isPrefixOf_iff_prefix.2 hs) hnone
    · obtain ⟨ht, hlongest'⟩ := longest hstart
      have hlength := Nat.le_antisymm (hlongest t ht) (hlongest' s hs)
      have hshort : t.spelling <+: s.spelling :=
        List.prefix_of_prefix_length_le ht hs (Nat.le_of_eq hlength)
      rw [spelling_injective (hshort.eq_of_length hlength)]

lemma shaped_of_symbol {offset : Nat} {c : Char} {cs : List Char} {x : Lexeme}
    (h : symbol offset c cs = .ok x) :
    ∃ shape, Shaped x.chars shape ∧ Ends shape x.rest ∧ Denotes shape x.token := by
  rw [symbol] at h
  split at h
  · rename_i s hs
    cases h
    obtain ⟨⟨rest, hrest⟩, hlongest⟩ := startOf?_eq_some_iff.1 hs
    refine ⟨.symbol s, .symbol s, ?_, .symbol s⟩
    have hdrop : (c :: cs).drop s.spelling.length = rest := by rw [← hrest, List.drop_left]
    intro t ht
    rw [hdrop, hrest] at ht
    exact hlongest t ht
  · cases h

lemma symbol_of_spelling {s : Symbol} {rest : List Char} {c : Char} {cs : List Char}
    (hcs : c :: cs = s.spelling ++ rest) (hrest : Ends (.symbol s) rest) (offset : Nat) :
    symbol offset c cs = .ok ⟨.symbol s, s.spelling, rest⟩ := by
  have hs : Symbol.startOf? (c :: cs) = some s := by
    rw [hcs]
    exact startOf?_eq_some_iff.2 ⟨List.prefix_append _ _, hrest⟩
  simp only [symbol, hs]
  rw [hcs, List.drop_left]

/-! ## The first lexeme -/

lemma shaped_of_first {offset : Nat} {c : Char} {cs : List Char} {x : Lexeme}
    (h : first offset c cs = .ok x) :
    ∃ shape, Shaped x.chars shape ∧ Ends shape x.rest ∧ Denotes shape x.token := by
  simp only [first] at h
  split at h
  · exact shaped_of_path h
  split at h
  · exact shaped_of_path h
  split at h
  · exact shaped_of_string h
  split at h
  · rename_i hc
    exact shaped_of_number hc h
  split at h
  · rename_i hc
    exact shaped_of_word hc h
  · exact shaped_of_symbol h

/-- The first lexeme of a text is read if and only if the text starts with the characters of one
form, which ends there and denotes the token. -/
lemma first_eq_ok_iff {offset : Nat} {c : Char} {cs : List Char} {x : Lexeme} :
    first offset c cs = .ok x ↔ x.chars ++ x.rest = c :: cs ∧
      ∃ shape, Shaped x.chars shape ∧ Ends shape x.rest ∧ Denotes shape x.token := by
  constructor
  · intro h
    exact ⟨(append_eq_of_first h).1, shaped_of_first h⟩
  · obtain ⟨token, chars, rest⟩ := x
    rintro ⟨hcs, shape, hshaped, hends, hdenotes⟩
    dsimp only at hcs hshaped hends hdenotes
    obtain ⟨d, ds, hd⟩ := List.exists_cons_of_ne_nil hshaped.ne_nil
    have hkind : shape.kind = Kind.ofStart c := by
      rw [hd] at hcs hshaped
      obtain rfl := (List.cons.inj hcs).1
      exact hshaped.kind_eq
    rw [first_eq, ← hkind]
    cases hshaped with
    | path hne hsegments =>
      cases hdenotes
      obtain ⟨-, rfl⟩ := List.cons.inj hcs
      exact path_of_shaped hne hsegments hends offset
    | string hquotes =>
      cases hdenotes
      rw [List.cons_append, List.append_assoc] at hcs
      obtain ⟨-, rfl⟩ := List.cons.inj hcs
      exact string_of_quotes hquotes offset rest
    | number hne hwhole hfraction =>
      cases hdenotes with
      | number hnegative hmantissa hscale =>
        rw [← hcs]
        exact number_of_shaped hwhole hfraction hends
          (ofDigits?_eq_some_iff.2 ⟨hnegative, hmantissa, hscale⟩) offset
    | word hstart hword =>
      rw [← hcs]
      have hchars : ∀ d ∈ _ :: _, isWordChar d = true :=
        List.forall_mem_cons.2 ⟨isWordChar_of_isWordStart hstart, hword⟩
      cases hdenotes <;> exact word_of_shaped hchars hends rfl offset
    | symbol s =>
      cases hdenotes
      exact symbol_of_spelling hcs.symm hends offset

end Lexeme

end GuardedMachine
