/-
# Scanning

A text is scanned when it is split, without anything left over, into lexemes with white space
around them, each of them the longest one that can be read where it starts (`Scans`).  The
tokens are what the lexemes denote, and each is placed at the number of bytes in front of its
lexeme.

`tokenize` scans: it gives exactly the tokens of such a split, and fails if there is none
(`tokenize_scans`).  That a reader looks one character ahead only is no restriction.  A lexeme
that ends with the text or before a character that cannot continue it is the longest; the
converse fails before a point, which could start a fraction or a segment, but no split goes on
from there (`Scans.stops_point`).
-/
import GuardedMachine.Proofs.Statement.Lexemes

namespace GuardedMachine

namespace Lexeme

/-- `Longest l rest`: no characters that a text `l ++ rest` starts with and that have the form
of a lexeme are more than `l`. -/
def Longest (l rest : List Char) : Prop :=
  ∀ (l' : List Char) (shape : Shape), Shaped l' shape → l' <+: l ++ rest → l'.length ≤ l.length

/-! ## Prefixes -/

/-- Characters of one class at the start of a text are at most those of the longest run. -/
lemma length_le_of_prefix_run {p : Char → Bool} {l run rest : List Char}
    (hl : ∀ c ∈ l, p c = true) (hrest : Stops p rest) (h : l <+: run ++ rest) :
    l.length ≤ run.length := by
  rcases Nat.lt_or_ge run.length l.length with hlt | hge
  · -- the character after the run would be of the class
    exfalso
    obtain ⟨tail, rfl⟩ := List.prefix_of_prefix_length_le (List.prefix_append run rest) h
      (Nat.le_of_lt hlt)
    rcases tail with _ | ⟨c, tail⟩
    · simp at hlt
    · rw [List.prefix_append_right_inj] at h
      obtain ⟨rest', rfl⟩ := h
      have hc := hl c (by simp)
      rw [stops_cons.1 hrest] at hc
      cases hc
  · exact hge

/-- The closing quote of a string is the first one that is not escaped. -/
lemma Quotes.eq_of_prefix {contents contents' written written' rest rest' : List Char}
    (h : Quotes contents written) (h' : Quotes contents' written')
    (heq : written ++ '"' :: rest = written' ++ '"' :: rest') : written = written' := by
  induction h generalizing contents' written' with
  | nil =>
    cases h' with
    | nil => rfl
    | escaped => cases heq
    | plain hquote => exact absurd (List.cons.inj heq).1.symm hquote
  | @escaped c contents written hc _ ih =>
    cases h' with
    | nil => cases heq
    | escaped hc' h' =>
      obtain ⟨rfl, htail⟩ := List.cons.inj (List.cons.inj heq).2
      rw [ih h' htail]
    | plain _ hbackslash => exact absurd (List.cons.inj heq).1.symm hbackslash
  | @plain c contents written hquote hbackslash _ ih =>
    cases h' with
    | nil => exact absurd (List.cons.inj heq).1 hquote
    | escaped => exact absurd (List.cons.inj heq).1 hbackslash
    | plain _ _ h' =>
      obtain ⟨rfl, htail⟩ := List.cons.inj heq
      rw [ih h' htail]

lemma isDigit_or_point_of_mem_numeral {whole fraction : List Char}
    (hwhole : ∀ c ∈ whole, c.isDigit = true) (hfraction : ∀ c ∈ fraction, c.isDigit = true) :
    ∀ c ∈ numeral whole fraction, (c.isDigit || c == '.') = true := by
  intro c hc
  cases fraction with
  | nil => rw [hwhole c hc, Bool.true_or]
  | cons d ds =>
    rcases List.mem_append.1 hc with hc | hc
    · rw [hwhole c hc, Bool.true_or]
    · rcases List.mem_cons.1 hc with rfl | hc
      · rfl
      · rw [hfraction c hc, Bool.true_or]

/-- Of two numbers that a text starts with, the one that does not go on is the longer one. -/
lemma length_numeral_le {whole whole' fraction fraction' rest : List Char}
    (hwhole : ∀ c ∈ whole, c.isDigit = true) (hwhole' : ∀ c ∈ whole', c.isDigit = true)
    (hfraction' : ∀ c ∈ fraction', c.isDigit = true)
    (hrest : Ends (.number whole fraction) rest)
    (h : numeral whole' fraction' <+: numeral whole fraction ++ rest) :
    (numeral whole' fraction').length ≤ (numeral whole fraction).length := by
  have stops_point (cs : List Char) : Stops Char.isDigit ('.' :: cs) := stops_cons.2 rfl
  rcases fraction with _ | ⟨d, ds⟩
  · -- what follows is neither a digit nor a point
    exact length_le_of_prefix_run (isDigit_or_point_of_mem_numeral hwhole' hfraction') hrest h
  · rw [numeral, List.append_assoc, List.cons_append] at h
    rcases fraction' with _ | ⟨e, es⟩
    · have hlength : whole'.length ≤ whole.length :=
        length_le_of_prefix_run hwhole' (stops_point _) h
      simp only [numeral, List.length_append]
      omega
    · -- the digits before the point are the same, and those after it are compared
      obtain ⟨tail, htail⟩ := h
      rw [numeral, List.append_assoc, List.cons_append] at htail
      have hle : whole'.length ≤ whole.length :=
        length_le_of_prefix_run hwhole' (stops_point _) (htail ▸ List.prefix_append _ _)
      have hge : whole.length ≤ whole'.length :=
        length_le_of_prefix_run hwhole (stops_point _) (htail.symm ▸ List.prefix_append _ _)
      obtain ⟨rfl, hfraction⟩ := List.append_inj htail (Nat.le_antisymm hle hge)
      have hprefix : e :: es <+: d :: ds ++ rest := ⟨tail, (List.cons.inj hfraction).2⟩
      have hlength := length_le_of_prefix_run hfraction' hrest hprefix
      simp only [numeral, List.length_append, List.length_cons] at hlength ⊢
      omega

/-! ## The longest lexeme -/

/-- A lexeme that does not go on is the longest one. -/
lemma Shaped.longest {l rest : List Char} {shape : Shape} (h : Shaped l shape)
    (hrest : Ends shape rest) : Longest l rest := by
  intro l' shape' h' hprefix
  obtain ⟨c, cs, hl⟩ := List.exists_cons_of_ne_nil h.ne_nil
  obtain ⟨c', cs', hl'⟩ := List.exists_cons_of_ne_nil h'.ne_nil
  -- both start with the same character, so they have the same form
  have hkind : shape.kind = shape'.kind := by
    rw [hl, hl', List.cons_append, List.cons_prefix_cons] at hprefix
    obtain ⟨rfl, -⟩ := hprefix
    rw [hl] at h
    rw [hl'] at h'
    rw [h.kind_eq, h'.kind_eq]
  cases h with
  | path =>
    cases h' <;> cases hkind
    case path segments' _ hsegments' =>
      rw [List.cons_append, List.cons_prefix_cons] at hprefix
      have hclass := isWordChar_or_point_of_mem_dotted hsegments'
      exact Nat.succ_le_succ (length_le_of_prefix_run hclass hrest hprefix.2)
  | string hquotes =>
    cases h' <;> cases hkind
    case string hquotes' =>
      obtain ⟨tail, htail⟩ := hprefix
      simp only [List.cons_append, List.append_assoc, List.nil_append, List.cons.injEq,
        true_and] at htail
      obtain rfl := hquotes'.eq_of_prefix hquotes htail
      exact Nat.le_refl _
  | number _ hwhole _ =>
    cases h' <;> cases hkind
    case number _ hwhole' hfraction' =>
      exact length_numeral_le hwhole hwhole' hfraction' hrest hprefix
  | word =>
    cases h' <;> cases hkind
    case word hstart' hword' =>
      have hclass : ∀ d ∈ _ :: _, isWordChar d = true :=
        List.forall_mem_cons.2 ⟨isWordChar_of_isWordStart hstart', hword'⟩
      exact length_le_of_prefix_run hclass hrest hprefix
  | symbol =>
    cases h' <;> cases hkind
    case symbol t => exact hrest t hprefix

/-- The longest lexeme is not followed by a character that would make it longer. -/
lemma Longest.stops {p : Char → Bool} {l rest : List Char} (h : Longest l rest)
    (hp : ∀ c, p c = true → ∃ shape, Shaped (l ++ [c]) shape) : Stops p rest := by
  intro c hc
  obtain ⟨cs, rfl⟩ := List.head?_eq_some_iff.1 (Option.mem_def.1 hc)
  rw [Bool.eq_false_iff]
  intro hclass
  obtain ⟨shape, hshaped⟩ := hp c hclass
  have hlength := h _ shape hshaped ⟨cs, by simp⟩
  rw [List.length_append, List.length_singleton] at hlength
  omega

/-- The longest lexeme does not go on, if no point follows. -/
lemma Shaped.ends {l rest : List Char} {shape : Shape} (h : Shaped l shape)
    (hlongest : Longest l rest) (hpoint : Stops (fun c => c == '.') rest) : Ends shape rest := by
  have stops_or_point {p : Char → Bool} (hp : Stops p rest) :
      Stops (fun c => p c || c == '.') rest :=
    fun c hc => Bool.or_eq_false_iff.2 ⟨hp c hc, hpoint c hc⟩
  have longer {p : Char → Bool} {c : Char} (hc : p c = true) {cs : List Char}
      (hcs : ∀ d ∈ cs, p d = true) : ∀ d ∈ cs ++ [c], p d = true :=
    List.forall_mem_append.2 ⟨hcs, List.forall_mem_singleton.2 hc⟩
  cases h with
  | @path scope segments hne hsegments =>
    refine stops_or_point (hlongest.stops fun c hc => ?_)
    -- the last segment would be longer
    obtain ⟨init, last, hsplit⟩ := (List.eq_nil_or_concat segments).resolve_left hne
    rw [List.concat_eq_append] at hsplit
    subst hsplit
    obtain ⟨hinit, hlast⟩ := List.forall_mem_append.1 hsegments
    obtain ⟨-, hlast⟩ := hlast last (List.mem_singleton_self last)
    have hdotted : scope.sigil :: dotted (init ++ [last]) ++ [c]
        = scope.sigil :: dotted (init ++ [last ++ [c]]) := by simp [dotted]
    rw [hdotted]
    refine ⟨_, .path (by simp) (List.forall_mem_append.2 ⟨hinit, ?_⟩)⟩
    exact List.forall_mem_singleton.2 ⟨by simp, longer hc hlast⟩
  | string => trivial
  | @number whole fraction hne hwhole hfraction =>
    cases fraction with
    | nil =>
      refine stops_or_point (hlongest.stops fun c hc => ⟨.number (whole ++ [c]) [], ?_⟩)
      exact .number (by simp) (longer hc hwhole) hfraction
    | cons d ds =>
      refine hlongest.stops fun c hc => ⟨.number whole (d :: (ds ++ [c])), ?_⟩
      have hnumeral : numeral whole (d :: ds) ++ [c] = numeral whole (d :: (ds ++ [c])) := by
        simp [numeral]
      rw [hnumeral]
      exact .number hne hwhole (longer hc hfraction)
  | @word d ds hstart hword =>
    exact hlongest.stops fun c hc => ⟨.word (d :: (ds ++ [c])), .word hstart (longer hc hword)⟩
  | symbol s => exact fun t ht => hlongest _ _ (.symbol t) ht

end Lexeme

/-! ## Splitting a text -/

open Lexeme

/-- `Scans offset cs ts`: the text `cs`, which starts at a byte offset, is split into white space
and longest lexemes, and these denote the tokens `ts` at their offsets. -/
inductive Scans : Nat → List Char → List PlacedToken → Prop
  | done {offset : Nat} {blanks : List Char} : (∀ c ∈ blanks, Text.isBlank c = true) →
    Scans offset blanks []
  | lexeme {offset : Nat} {blanks l rest : List Char} {shape : Shape} {t : Token}
      {ts : List PlacedToken} :
    (∀ c ∈ blanks, Text.isBlank c = true) → Shaped l shape → Longest l rest → Denotes shape t →
      Scans (offset + byteLength (blanks ++ l)) rest ts →
        Scans offset (blanks ++ (l ++ rest)) (⟨t, offset + byteLength blanks⟩ :: ts)

/-- White space in front of a text moves its tokens. -/
lemma Scans.blank {c : Char} (hc : Text.isBlank c = true) {offset : Nat} {cs : List Char}
    {ts : List PlacedToken} (h : Scans (offset + c.utf8Size) cs ts) :
    Scans offset (c :: cs) ts := by
  have hblanks {blanks : List Char} (h : ∀ d ∈ blanks, Text.isBlank d = true) :
      ∀ d ∈ c :: blanks, Text.isBlank d = true := List.forall_mem_cons.2 ⟨hc, h⟩
  cases h with
  | done h => exact .done (hblanks h)
  | lexeme h hshaped hlongest hdenotes hrest =>
    rw [Nat.add_assoc] at hrest ⊢
    exact .lexeme (hblanks h) hshaped hlongest hdenotes hrest

/-- No text that can be scanned starts with a point. -/
lemma Scans.stops_point {offset : Nat} {cs : List Char} {ts : List PlacedToken}
    (h : Scans offset cs ts) : Stops (fun c => c == '.') cs := by
  have not_point {blanks : List Char} (h : ∀ c ∈ blanks, Text.isBlank c = true)
      (hne : blanks ≠ []) (rest : List Char) : Stops (fun c => c == '.') (blanks ++ rest) := by
    obtain ⟨c, cs, rfl⟩ := List.exists_cons_of_ne_nil hne
    rw [List.cons_append, stops_cons, beq_eq_false_iff_ne]
    rintro rfl
    cases h '.' List.mem_cons_self
  cases h with
  | done h =>
    by_cases hne : cs = []
    · rw [hne]
      exact stops_nil _
    · simpa using not_point h hne []
  | @lexeme offset blanks l rest shape t ts h hshaped =>
    by_cases hne : blanks = []
    · obtain ⟨c, cs, rfl⟩ := List.exists_cons_of_ne_nil hshaped.ne_nil
      rw [hne, List.nil_append, List.cons_append, stops_cons, beq_eq_false_iff_ne]
      exact hshaped.ne_point
    · exact not_point h hne _

/-! ## The tokenizer -/

lemma tokenize_nil (offset : Nat) : tokenize offset [] = .ok [] := by rw [tokenize]

lemma tokenize_blank {c : Char} (hc : Text.isBlank c = true) (offset : Nat) (cs : List Char) :
    tokenize offset (c :: cs) = tokenize (offset + c.utf8Size) cs := by
  rw [tokenize, if_pos hc]

lemma tokenize_of_first_ok {c : Char} (hc : Text.isBlank c = false) {offset : Nat}
    {cs : List Char} {l : Lexeme} (h : first offset c cs = .ok l) :
    tokenize offset (c :: cs)
      = (tokenize (offset + byteLength l.chars) l.rest).map (⟨l.token, offset⟩ :: ·) := by
  rw [tokenize, if_neg (by simp [hc])]
  split
  · rename_i fault hfault
    cases h.symm.trans hfault
  · rename_i l' hl'
    cases h.symm.trans hl'
    rfl

lemma tokenize_of_first_error {c : Char} (hc : Text.isBlank c = false) {offset : Nat}
    {cs : List Char} {fault : Fault} (h : first offset c cs = .error fault) :
    tokenize offset (c :: cs) = .error fault := by
  rw [tokenize, if_neg (by simp [hc])]
  split
  · rename_i fault' hfault
    cases h.symm.trans hfault
    rfl
  · rename_i l' hl'
    cases h.symm.trans hl'

lemma tokenize_append_blanks {blanks : List Char} (h : ∀ c ∈ blanks, Text.isBlank c = true)
    (offset : Nat) (cs : List Char) :
    tokenize offset (blanks ++ cs) = tokenize (offset + byteLength blanks) cs := by
  induction blanks generalizing offset with
  | nil => rfl
  | cons c blanks ih =>
    have hrest := ih (fun d hd => h d (List.mem_cons_of_mem _ hd)) (offset + c.utf8Size)
    rw [List.cons_append, tokenize_blank (h c List.mem_cons_self), hrest, byteLength, Nat.add_assoc]

/-- The tokenizer reads a lexeme that ends where the rest of the text starts. -/
lemma tokenize_append_lexeme {l rest : List Char} {shape : Shape} {t : Token}
    (hshaped : Shaped l shape) (hends : Ends shape rest) (hdenotes : Denotes shape t)
    (offset : Nat) :
    tokenize offset (l ++ rest)
      = (tokenize (offset + byteLength l) rest).map (⟨t, offset⟩ :: ·) := by
  obtain ⟨c, cs, hl⟩ := List.exists_cons_of_ne_nil hshaped.ne_nil
  have hc : Text.isBlank c = false := by
    rw [hl] at hshaped
    exact hshaped.isBlank_eq_false
  have hfirst : first offset c (cs ++ rest) = .ok ⟨t, l, rest⟩ :=
    first_eq_ok_iff.2 ⟨by simp [hl], shape, hshaped, hends, hdenotes⟩
  have h := tokenize_of_first_ok hc hfirst
  rwa [← List.cons_append, ← hl] at h

/-- Induction along the lexemes of a text: the tokenizer is at the end, or it passes over white
space, fails at a lexeme, or goes on behind one. -/
lemma tokenize_induction {motive : Nat → List Char → Prop}
    (done : ∀ offset, motive offset [])
    (blank : ∀ offset c cs, Text.isBlank c = true → motive (offset + c.utf8Size) cs →
      motive offset (c :: cs))
    (fault : ∀ offset c cs fault, Text.isBlank c = false → first offset c cs = .error fault →
      motive offset (c :: cs))
    (lexeme : ∀ offset c cs l, Text.isBlank c = false → first offset c cs = .ok l →
      motive (offset + byteLength l.chars) l.rest → motive offset (c :: cs))
    (offset : Nat) (cs : List Char) : motive offset cs := by
  induction hn : cs.length using Nat.strongRecOn generalizing offset cs with
  | ind n ih =>
    subst hn
    rcases cs with _ | ⟨c, cs⟩
    · exact done offset
    · rcases hc : Text.isBlank c with _ | _
      · rcases hfirst : first offset c cs with err | l
        · exact fault offset c cs err hc hfirst
        · exact lexeme offset c cs l hc hfirst (ih _ (length_rest_lt_of_first hfirst) _ _ rfl)
      · exact blank offset c cs hc (ih cs.length (by simp) _ _ rfl)

lemma scans_of_tokenize {offset : Nat} {cs : List Char} {ts : List PlacedToken}
    (h : tokenize offset cs = .ok ts) : Scans offset cs ts := by
  induction offset, cs using tokenize_induction generalizing ts with
  | done offset =>
    rw [tokenize_nil] at h
    cases h
    exact .done (by simp)
  | blank offset c cs hc ih =>
    rw [tokenize_blank hc] at h
    exact .blank hc (ih h)
  | fault offset c cs err hc hfirst =>
    rw [tokenize_of_first_error hc hfirst] at h
    cases h
  | lexeme offset c cs l hc hfirst ih =>
    obtain ⟨heq, shape, hshaped, hends, hdenotes⟩ := first_eq_ok_iff.1 hfirst
    rw [tokenize_of_first_ok hc hfirst] at h
    rcases hrest : tokenize (offset + byteLength l.chars) l.rest with _ | more <;>
      rw [hrest] at h
    · cases h
    · cases h
      rw [← heq]
      exact @Scans.lexeme offset [] l.chars l.rest shape l.token more (by simp) hshaped
        (hshaped.longest hends) hdenotes (ih hrest)

lemma Scans.tokenize_eq {offset : Nat} {cs : List Char} {ts : List PlacedToken}
    (h : Scans offset cs ts) : tokenize offset cs = .ok ts := by
  induction h with
  | @done offset blanks h =>
    have hblanks := tokenize_append_blanks h offset []
    rwa [List.append_nil, tokenize_nil] at hblanks
  | lexeme h hshaped hlongest hdenotes hrest ih =>
    have hends := hshaped.ends hlongest hrest.stops_point
    rw [byteLength_append, ← Nat.add_assoc] at ih
    rw [tokenize_append_blanks h, tokenize_append_lexeme hshaped hends hdenotes, ih]
    rfl

/-- The digits of a number stand for a decimal exactly if it can hold all of them. -/
lemma exists_denotes_number_iff {whole fraction : List Char} :
    (∃ t, Denotes (.number whole fraction) t) ↔ fraction.length ≤ maxScale ∧
      Nat.ofDigitChars 10 (whole ++ fraction) 0 ≤ maxMantissa := by
  constructor
  · rintro ⟨_, h⟩
    cases h with
    | @number _ _ d _ hmantissa hscale =>
      rw [← hmantissa, ← hscale]
      exact ⟨d.scale_le, d.mantissa_le⟩
  · rintro ⟨hscale, hmantissa⟩
    let d : Decimal := ⟨false, _, _, hmantissa, hscale⟩
    exact ⟨.literal (.decimal d), .number rfl rfl rfl⟩

/-- **The tokenizer is a lossless longest-match scanner.**  It gives some tokens for a text if
and only if the text is split completely into white space and lexemes, each the longest one at
its place, and these denote the tokens at the byte offsets at which they start.  A number denotes
one if its fraction and all of its digits, read as one number, are within the bounds. -/
theorem tokenize_scans (text : String) :
    (∀ ts, tokenize 0 text.toList = .ok ts ↔ Scans 0 text.toList ts) ∧
    (∀ whole fraction, (∃ t, Denotes (.number whole fraction) t) ↔ fraction.length ≤ maxScale ∧
      Nat.ofDigitChars 10 (whole ++ fraction) 0 ≤ maxMantissa) :=
  ⟨fun _ => ⟨scans_of_tokenize, Scans.tokenize_eq⟩, fun _ _ => exists_denotes_number_iff⟩

end GuardedMachine
