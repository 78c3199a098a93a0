/-
# The digits of a decimal

A decimal is written with its digits before and after the point.  Both are padded so that no
digit is lost: read as one number they are the mantissa (`ofDigitChars_digits`), and those after
the point are as many as the scale (`length_fractionDigits`).

So the text of a decimal is read back as that decimal: the digits end where the point is, and their
number and their count are within the bounds since the decimal is.  Only the sign of a zero gets
lost (`read?_toChars`).
-/
import Mathlib.Tactic.Lemma
import GuardedMachine.Decimal.Text

namespace GuardedMachine

namespace Decimal

section Padding

variable {length n : Nat}

lemma length_paddedDigits (h : n < Nat.pow 10 length) :
    (paddedDigits length n).length = length := by
  rw [paddedDigits]
  by_cases hzero : length = 0
  · rw [if_pos hzero, hzero]
    rfl
  · have hle : (Nat.toDigits 10 n).length ≤ length :=
      (Nat.length_toDigits_le_iff (by decide) (Nat.pos_of_ne_zero hzero)).2 h
    rw [if_neg hzero, List.length_leftpad]
    omega

lemma isDigit_of_mem_paddedDigits {c : Char} (h : c ∈ paddedDigits length n) :
    c.isDigit = true := by
  rw [paddedDigits] at h
  split at h
  · cases h
  · rw [List.leftpad] at h
    rcases List.mem_append.1 h with h | h
    · rw [List.eq_of_mem_replicate h]
      rfl
    · exact Nat.isDigit_of_mem_toDigits (by decide) (by decide) h

/-- Padding does not change the number that digits stand for. -/
lemma ofDigitChars_paddedDigits (h : n < Nat.pow 10 length) :
    Nat.ofDigitChars 10 (paddedDigits length n) 0 = n := by
  rw [paddedDigits]
  by_cases hzero : length = 0
  · subst hzero
    exact (Nat.lt_one_iff.1 h).symm
  · rw [if_neg hzero, List.leftpad, Nat.ofDigitChars_append, Nat.ofDigitChars_replicate_zero,
      Nat.mul_zero]
    exact Nat.ofDigitChars_ten_toDigits

end Padding

variable (d : Decimal)

/-- The digits before the point. -/
def wholeDigits : List Char := Nat.toDigits 10 (d.mantissa / Nat.pow 10 d.scale)

/-- The digits after the point. -/
def fractionDigits : List Char := paddedDigits d.scale (d.mantissa % Nat.pow 10 d.scale)

lemma mod_lt_pow (m scale : Nat) : m % Nat.pow 10 scale < Nat.pow 10 scale :=
  Nat.mod_lt _ (Nat.pow_pos (by decide))

lemma length_fractionDigits : d.fractionDigits.length = d.scale :=
  length_paddedDigits (mod_lt_pow _ _)

/-- All digits, read as one number, are the mantissa. -/
lemma ofDigitChars_digits :
    Nat.ofDigitChars 10 (d.wholeDigits ++ d.fractionDigits) 0 = d.mantissa := by
  have hwhole : Nat.ofDigitChars 10 d.wholeDigits 0 = d.mantissa / Nat.pow 10 d.scale :=
    Nat.ofDigitChars_ten_toDigits
  have hfraction : Nat.ofDigitChars 10 d.fractionDigits 0 = d.mantissa % Nat.pow 10 d.scale :=
    ofDigitChars_paddedDigits (mod_lt_pow _ _)
  rw [Nat.ofDigitChars_append, hwhole, Nat.ofDigitChars_eq_ofDigitChars_zero, hfraction,
    length_fractionDigits]
  exact Nat.div_add_mod _ _

/-- The characters of a decimal without its sign. -/
def unsignedChars : List Char :=
  d.wholeDigits ++ if d.scale = 0 then [] else '.' :: d.fractionDigits

lemma toChars_eq : d.toChars = (if d.negative then ['-'] else []) ++ d.unsignedChars := by
  simp [toChars, unsignedChars, wholeDigits, fractionDigits]

lemma toChars_of_nonnegative {d : Decimal} (h : d.negative = false) :
    d.toChars = d.wholeDigits ++ if d.scale = 0 then [] else '.' :: d.fractionDigits := by
  rw [toChars_eq, h]
  rfl

/-! ## Reading a decimal back -/

lemma isDigit_of_mem_wholeDigits {c : Char} (h : c ∈ d.wholeDigits) : c.isDigit = true :=
  Nat.isDigit_of_mem_toDigits (by decide) (by decide) h

lemma wholeDigits_ne_nil : d.wholeDigits ≠ [] := Nat.toDigits_ne_nil

lemma fractionDigits_eq_nil_iff : d.fractionDigits = [] ↔ d.scale = 0 := by
  rw [← List.length_eq_zero_iff, length_fractionDigits]

/-- A decimal has its digits, whatever sign is put in front of them. -/
lemma ofDigits?_digits (negative : Bool) :
    ofDigits? negative d.wholeDigits d.fractionDigits = some { d with negative := negative } := by
  rw [ofDigits?, ofDigitChars_digits, length_fractionDigits]
  exact dif_pos ⟨d.mantissa_le, d.scale_le⟩

/-- The digits before the point are read up to the point. -/
lemma span_unsignedChars :
    d.unsignedChars.takeWhile Char.isDigit = d.wholeDigits ∧
      d.unsignedChars.dropWhile Char.isDigit
        = if d.scale = 0 then [] else '.' :: d.fractionDigits := by
  have hdigits : ∀ c ∈ d.wholeDigits, c.isDigit = true := fun c => d.isDigit_of_mem_wholeDigits
  have hpoint : Char.isDigit '.' = false := rfl
  rw [unsignedChars, List.takeWhile_append_of_pos hdigits, List.dropWhile_append_of_pos hdigits]
  split
  · simp
  · simp [hpoint]

lemma readUnsigned?_unsignedChars (negative : Bool) :
    readUnsigned? negative d.unsignedChars = some { d with negative := negative } := by
  obtain ⟨hwhole, hrest⟩ := d.span_unsignedChars
  obtain ⟨c, cs, hcons⟩ := List.exists_cons_of_ne_nil d.wholeDigits_ne_nil
  have hread := d.ofDigits?_digits negative
  rw [readUnsigned?, hwhole, hrest]
  rw [hcons] at hread ⊢
  by_cases hscale : d.scale = 0
  · -- no point is written
    rw [d.fractionDigits_eq_nil_iff.2 hscale] at hread
    rw [if_pos hscale]
    exact hread
  · have hfraction : d.fractionDigits ≠ [] ∧ d.fractionDigits.all Char.isDigit = true :=
      ⟨mt d.fractionDigits_eq_nil_iff.1 hscale,
        List.all_eq_true.2 fun c => isDigit_of_mem_paddedDigits⟩
    rw [if_neg hscale]
    exact (if_pos hfraction).trans hread

/-- A decimal without sign starts with a digit, so not with a sign. -/
lemma read?_unsignedChars : read? d.unsignedChars = readUnsigned? false d.unsignedChars := by
  obtain ⟨c, cs, hcons⟩ := List.exists_cons_of_ne_nil d.wholeDigits_ne_nil
  have hdigit : c.isDigit = true := d.isDigit_of_mem_wholeDigits (hcons ▸ List.mem_cons_self)
  unfold read?
  split
  · rename_i rest hrest
    rw [unsignedChars, hcons] at hrest
    obtain rfl : c = '-' := (List.cons.inj hrest).1
    cases hdigit
  · rfl

/-- A decimal is a zero with a sign. -/
def IsNegativeZero : Prop := d.negative = true ∧ d.mantissa = 0

lemma withoutNegativeZero_eq_self {d : Decimal} (h : ¬ d.IsNegativeZero) :
    d.withoutNegativeZero = d := by
  have hsign : (d.negative && d.mantissa != 0) = d.negative := by
    rcases hnegative : d.negative with _ | _
    · rfl
    · rw [Bool.true_and, bne_iff_ne]
      exact fun hzero => h ⟨hnegative, hzero⟩
  rw [withoutNegativeZero, hsign]

/-- The text of a decimal is read back as the decimal, but for the sign of a zero. -/
lemma read?_toChars : read? d.toChars = some d.withoutNegativeZero := by
  rw [toChars_eq]
  cases hsign : d.negative with
  | true =>
    have hread : readUnsigned? true d.unsignedChars = some d := by
      rw [readUnsigned?_unsignedChars, ← hsign]
    exact congrArg (Option.map withoutNegativeZero) hread
  | false =>
    have hread : readUnsigned? false d.unsignedChars = some d := by
      rw [readUnsigned?_unsignedChars, ← hsign]
    have hzero : ¬ d.IsNegativeZero := fun h => Bool.false_ne_true (hsign.symm.trans h.1)
    rw [withoutNegativeZero_eq_self hzero]
    exact d.read?_unsignedChars.trans hread

end Decimal

end GuardedMachine
