/-
# Places between tokens

A place in a text is between its tokens if one comes there by reading whole lexemes and white
space (`Boundary`).  Such are the places where a token starts or ends (`Scans.boundary_of_mem`).

White space may be put in at such a place: no lexeme goes on with it, so the tokens in front of
the place stay, and those behind it move by its bytes (`Boundary.tokenize_insert`).
-/
import GuardedMachine.Proofs.Statement.Negation

namespace GuardedMachine

open Lexeme

/-- `Boundary before after`: the place between the two parts of a text is between its tokens. -/
inductive Boundary : List Char → List Char → Prop
  | blanks {blanks after : List Char} : (∀ c ∈ blanks, Text.isBlank c = true) →
    Boundary blanks after
  | lexeme {blanks l before after : List Char} {shape : Shape} {t : Token} :
    (∀ c ∈ blanks, Text.isBlank c = true) → Shaped l shape → Ends shape (before ++ after) →
      Denotes shape t → Boundary before after → Boundary (blanks ++ (l ++ before)) after

/-- The lexeme of a token stands where the token is placed, and its ends are places between
tokens. -/
lemma Scans.boundary_of_mem {offset : ℕ} {cs : List Char} {ts : List PlacedToken}
    (h : Scans offset cs ts) {t : PlacedToken} (ht : t ∈ ts) :
    ∃ before l after shape, cs = before ++ (l ++ after) ∧ t.offset = offset + byteLength before ∧
      Shaped l shape ∧ Longest l after ∧ Denotes shape t.token ∧
      Boundary before (l ++ after) ∧ Boundary (before ++ l) after := by
  induction h with
  | done => cases ht
  | @lexeme offset blanks l rest shape token ts hblanks hshaped hlongest hdenotes hrest ih =>
    have hends : Ends shape rest := hshaped.ends hlongest hrest.stops_point
    rcases List.mem_cons.1 ht with rfl | ht
    · have hend : Boundary (blanks ++ (l ++ [])) rest :=
        .lexeme hblanks hshaped hends hdenotes (.blanks (by simp))
      rw [List.append_nil] at hend
      exact ⟨blanks, l, rest, shape, rfl, rfl, hshaped, hlongest, hdenotes, .blanks hblanks, hend⟩
    · obtain ⟨before, l', after, shape', rfl, hoffset, hshaped', hlongest', hdenotes', hstart,
        hend⟩ := ih ht
      rw [← List.append_assoc] at hends
      refine ⟨blanks ++ (l ++ before), l', after, shape', by simp, ?_, hshaped', hlongest',
        hdenotes', .lexeme hblanks hshaped (by simpa using hends) hdenotes hstart, ?_⟩
      · rw [hoffset]
        simp only [byteLength_append]
        omega
      · have hboundary := Boundary.lexeme hblanks hshaped hends hdenotes hend
        simpa using hboundary

/-! ## White space behind a lexeme -/

namespace Lexeme

lemma isWordChar_eq_false_of_isBlank {c : Char} (h : Text.isBlank c = true) :
    isWordChar c = false := by
  rw [Bool.eq_false_iff]
  intro hword
  -- every word character is a visible one
  have hvisible : 33 ≤ c.toNat ∧ c.toNat ≤ 126 := by
    simp only [isWordChar, Char.isAlphanum, Bool.or_assoc, Bool.or_eq_true] at hword
    rcases hword with halpha | hdigit | hunderscore
    · have := toNat_of_isWordStart (c := c) (by rw [isWordStart, halpha, Bool.true_or])
      omega
    · have := toNat_of_isDigit hdigit
      omega
    · rw [beq_iff_eq] at hunderscore
      subst hunderscore
      decide
  rw [isBlank_eq_false_of_toNat hvisible] at h
  cases h

/-- Every lexeme ends before white space. -/
lemma ends_blank {c : Char} (hc : Text.isBlank c = true) (shape : Shape) (rest : List Char) :
    Ends shape (c :: rest) := by
  refine ends_cons ?_ (fun t _ hmem => ?_) shape rest
  · rw [isWordChar_eq_false_of_isBlank hc, Bool.false_or, beq_eq_false_iff_ne]
    rintro rfl
    cases hc
  · have hvisible : ∀ d ∈ t.spelling, 33 ≤ d.toNat ∧ d.toNat ≤ 126 := by
      cases t <;> simp [Symbol.spelling]
    rw [isBlank_eq_false_of_toNat (hvisible c hmem)] at hc
    cases hc

/-- A lexeme still ends where it does when white space is put in behind it. -/
lemma Ends.insert_blanks {shape : Shape} {before blanks after : List Char}
    (h : Ends shape (before ++ after)) (hblanks : ∀ c ∈ blanks, Text.isBlank c = true) :
    Ends shape (before ++ (blanks ++ after)) := by
  rcases before with _ | ⟨c, before⟩
  · rcases blanks with _ | ⟨d, blanks⟩
    · exact h
    · exact ends_blank (hblanks d List.mem_cons_self) shape _
  · refine h.of_head? ?_
    rfl

end Lexeme

/-! ## Tokens that move -/

/-- A token at another place. -/
def PlacedToken.move (f : ℕ → ℕ) (t : PlacedToken) : PlacedToken := ⟨t.token, f t.offset⟩

/-- Where a place in a text is after `n` bytes have been put in at `place`. -/
def shiftFrom (place n offset : ℕ) : ℕ := if place ≤ offset then offset + n else offset

/-- In a text that starts later, the tokens are later. -/
lemma Scans.shift {offset : ℕ} {cs : List Char} {ts : List PlacedToken} (h : Scans offset cs ts)
    (n : ℕ) : Scans (offset + n) cs (ts.map (PlacedToken.move (· + n))) := by
  induction h with
  | done hblanks => exact .done hblanks
  | @lexeme offset blanks l rest shape t ts hblanks hshaped hlongest hdenotes _ ih =>
    rw [Nat.add_right_comm] at ih
    have hlexeme := Scans.lexeme hblanks hshaped hlongest hdenotes ih
    rw [Nat.add_right_comm] at hlexeme
    exact hlexeme

/-- White space put in between tokens moves the tokens behind it. -/
lemma Boundary.tokenize_insert {before after : List Char} (h : Boundary before after)
    {w : List Char} (hw : ∀ c ∈ w, Text.isBlank c = true) {offset : ℕ} {ts : List PlacedToken}
    (htokens : tokenize offset (before ++ after) = .ok ts) :
    tokenize offset (before ++ (w ++ after)) = .ok
      (ts.map (PlacedToken.move (shiftFrom (offset + byteLength before) (byteLength w)))) := by
  induction h generalizing offset ts with
  | blanks hblanks =>
    rw [tokenize_append_blanks hblanks] at htokens
    have hscans := scans_of_tokenize htokens
    rw [tokenize_append_blanks hblanks, tokenize_append_blanks hw, (hscans.shift _).tokenize_eq]
    -- all tokens are behind the place
    refine congrArg Except.ok (List.map_congr_left fun t ht => ?_)
    rw [PlacedToken.move, PlacedToken.move, shiftFrom, if_pos (hscans.pairwise_offset.1 t ht)]
  | @lexeme blanks l before after shape t hblanks hshaped hends hdenotes _ ih =>
    simp only [List.append_assoc] at htokens ⊢
    rw [tokenize_append_blanks hblanks, tokenize_append_lexeme hshaped hends hdenotes] at htokens
    rw [tokenize_append_blanks hblanks,
      tokenize_append_lexeme hshaped (hends.insert_blanks hw) hdenotes]
    rcases hmore : tokenize (offset + byteLength blanks + byteLength l) (before ++ after)
      with _ | more <;> rw [hmore] at htokens
    · cases htokens
    · cases htokens
      have hplace : offset + byteLength blanks + byteLength l + byteLength before
          = offset + byteLength (blanks ++ (l ++ before)) := by
        simp only [byteLength_append]
        omega
      -- the token is in front of the place
      have htoken : shiftFrom (offset + byteLength (blanks ++ (l ++ before))) (byteLength w)
          (offset + byteLength blanks) = offset + byteLength blanks := by
        have := byteLength_pos hshaped.ne_nil
        rw [shiftFrom, if_neg]
        omega
      rw [ih hmore, hplace, List.map_cons, PlacedToken.move, htoken]
      rfl

end GuardedMachine
