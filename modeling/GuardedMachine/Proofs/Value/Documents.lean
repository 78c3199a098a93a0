/-
# The documents of values

A value is read back from the document that it is written as.  The only thing that gets lost is the
sign of a zero: a negative zero comes back as the plain zero of the same scale
(`Value.ofJson?_toJson`), which stands for the same number but is written without the minus sign.
A decimal is written as text, so its scale is kept, and its text is read back as that decimal for
every mantissa and every scale within the bounds (`Decimal.read?_toChars`).
-/
import GuardedMachine.Proofs.Decimal.Digits
import GuardedMachine.Value.Codec

namespace GuardedMachine

namespace Decimal

variable {d : Decimal}

lemma IsNegativeZero.withoutNegativeZero_eq (h : d.IsNegativeZero) :
    d.withoutNegativeZero = ⟨false, 0, d.scale, Nat.zero_le _, d.scale_le⟩ := by
  obtain ⟨negative, mantissa, scale, hm, hs⟩ := d
  obtain ⟨rfl, rfl⟩ := h
  rfl

/-- A negative zero is written as the plain zero of its scale with a minus sign in front. -/
lemma IsNegativeZero.toText_eq (h : d.IsNegativeZero) :
    d.toText = "-" ++ d.withoutNegativeZero.toText := by
  have hchars : d.toChars = ['-'] ++ d.withoutNegativeZero.toChars := by
    obtain ⟨negative, mantissa, scale, hm, hs⟩ := d
    obtain ⟨rfl, rfl⟩ := h
    rfl
  rw [toText, toText, hchars, String.ofList_append]

lemma sameNumber_withoutNegativeZero (d : Decimal) : d.withoutNegativeZero.sameNumber d = true := by
  have hcoefficient : d.withoutNegativeZero.coefficient = d.coefficient := by
    rcases d with ⟨_ | _, m, s, hm, hs⟩
    · rfl
    · by_cases hzero : m = 0
      · simp [withoutNegativeZero, coefficient, hzero]
      · simp [withoutNegativeZero, coefficient, hzero]
  have hscale : d.withoutNegativeZero.scale = d.scale := rfl
  rw [sameNumber, overCommonScale, hcoefficient, hscale]
  exact beq_self_eq_true _

end Decimal

namespace Value

/-- A value with a negative zero replaced by the plain zero of the same scale. -/
def withoutNegativeZero : Value → Value
  | .decimal d => .decimal d.withoutNegativeZero
  | v => v

/-- A value is a zero with a sign. -/
def IsNegativeZero (v : Value) : Prop := ∃ d, v = .decimal d ∧ d.IsNegativeZero

variable {v : Value}

lemma withoutNegativeZero_eq_self (h : ¬ v.IsNegativeZero) : v.withoutNegativeZero = v := by
  cases v with
  | decimal d =>
    exact congrArg decimal (Decimal.withoutNegativeZero_eq_self fun hd => h ⟨d, rfl, hd⟩)
  | _ => rfl

lemma same_withoutNegativeZero (v : Value) : v.withoutNegativeZero.same v = true := by
  cases v with
  | decimal d => exact d.sameNumber_withoutNegativeZero
  | _ => exact same_refl _

/-- What a value is written as is read back, but for the sign of a zero. -/
lemma ofJson?_toJson (v : Value) : ofJson? v.toJson = some v.withoutNegativeZero := by
  cases v with
  | null => rfl
  | bool b => rfl
  | decimal d =>
    have hread : Decimal.ofJson? (.string d.toText) = some d.withoutNegativeZero := by
      rw [Decimal.ofJson?, Decimal.toText, String.toList_ofList]
      exact d.read?_toChars
    exact congrArg (Option.map decimal) hread
  | string s => rfl

/-- The text shows whether a minus sign was dropped. -/
lemma toText_withoutNegativeZero_eq_iff :
    v.withoutNegativeZero.toText = v.toText ↔ ¬ v.IsNegativeZero := by
  constructor
  · rintro htext ⟨d, rfl, hd⟩
    have hlonger : "-" ++ d.withoutNegativeZero.toText = d.withoutNegativeZero.toText :=
      hd.toText_eq.symm.trans htext.symm
    have hlength := congrArg String.length hlonger
    rw [String.length_append] at hlength
    simp at hlength
  · intro h
    rw [withoutNegativeZero_eq_self h]

/-- **The documents of values.**  Every value is read back from the document that it is written as.
What is read stands for the same thing; it is the value itself, and so has the same text with the
same scale, unless the value is a negative zero.  Then it is the plain zero of the same scale, and
the text has lost its minus sign and nothing else. -/
theorem document_round_trip (v : Value) :
    ∃ w, ofJson? v.toJson = some w ∧ w.same v = true ∧
      (w.toText = v.toText ↔ ¬ v.IsNegativeZero) ∧
      (¬ v.IsNegativeZero → w = v) ∧
      ∀ d, v = .decimal d → d.IsNegativeZero →
        w = .decimal ⟨false, 0, d.scale, Nat.zero_le _, d.scale_le⟩ ∧
          v.toText = "-" ++ w.toText := by
  refine ⟨v.withoutNegativeZero, ofJson?_toJson v, same_withoutNegativeZero v,
    toText_withoutNegativeZero_eq_iff, withoutNegativeZero_eq_self, ?_⟩
  rintro d rfl hd
  exact ⟨congrArg decimal hd.withoutNegativeZero_eq, hd.toText_eq⟩

/-- The greatest decimal with all its digits in the fraction comes back as it is, and a negative
zero with two fraction digits without its sign. -/
theorem document_round_trip_bounds :
    let tiny : Value := .decimal ⟨true, maxMantissa, 28, by decide, by decide⟩
    let negativeZero : Value := .decimal ⟨true, 0, 2, by decide, by decide⟩
    let plainZero : Value := .decimal ⟨false, 0, 2, by decide, by decide⟩
    (ofJson? tiny.toJson = some tiny ∧ tiny.toText = "-7.9228162514264337593543950335") ∧
      ofJson? negativeZero.toJson = some plainZero ∧ plainZero.same negativeZero = true ∧
      negativeZero.toText = "-0.00" ∧ plainZero.toText = "0.00" := by
  intro tiny negativeZero plainZero
  obtain ⟨w, hread, -, -, hsame, -⟩ := document_round_trip tiny
  obtain ⟨z, hzero, hnumber, -, -, hplain⟩ := document_round_trip negativeZero
  have htiny : ¬ tiny.IsNegativeZero := by
    rintro ⟨d, hd, hnegative⟩
    obtain rfl := Value.decimal.inj hd
    exact absurd hnegative.2 (by decide)
  have hz := (hplain _ rfl ⟨rfl, rfl⟩).1
  rw [hsame htiny] at hread
  rw [hz] at hzero hnumber
  exact ⟨⟨hread, by decide +kernel⟩, hzero, hnumber, by decide +kernel, by decide +kernel⟩

end Value

end GuardedMachine
