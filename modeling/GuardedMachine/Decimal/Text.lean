/-
# Decimals as text

A decimal is written with a minus sign if it is negative, its whole part without needless
zeros, and, when its scale is not zero, a point and exactly as many fraction digits as its
scale says: `1.50`, `-0`, `0.00`.

Two readers undo this.  `ofDigits?` takes the digits before and after the point and accepts
them when the mantissa and the scale are within the bounds; nothing is ever rounded.
`read?` takes a whole text with an optional minus sign, and gives a plain zero for a negative
one.
-/
import GuardedMachine.Decimal.Basic

namespace GuardedMachine

namespace Decimal

/-- The digits of `n`, filled up with zeros on the left to the given length. -/
def paddedDigits (length n : Nat) : List Char :=
  if length = 0 then [] else (Nat.toDigits 10 n).leftpad length '0'

/-- The characters that a decimal is written with. -/
def toChars (d : Decimal) : List Char :=
  let sign := if d.negative then ['-'] else []
  let whole := Nat.toDigits 10 (d.mantissa / Nat.pow 10 d.scale)
  let fraction :=
    if d.scale = 0 then [] else '.' :: paddedDigits d.scale (d.mantissa % Nat.pow 10 d.scale)
  sign ++ whole ++ fraction

/-- The text of a decimal; it shows the scale and the sign of zero. -/
def toText (d : Decimal) : String := String.ofList d.toChars

/-- The text of the number alone: no trailing fraction zeros, and no sign on zero. -/
def numberText (d : Decimal) : String := d.normalize.toText

/-- The decimal with the given digits before and after the point, if it is within the
bounds. -/
def ofDigits? (negative : Bool) (whole fraction : List Char) : Option Decimal :=
  ofParts? negative (Nat.ofDigitChars 10 (whole ++ fraction) 0) fraction.length

/-- The decimal that a text without sign stands for: digits, or digits, a point and
digits. -/
def readUnsigned? (negative : Bool) (cs : List Char) : Option Decimal :=
  let whole := cs.takeWhile Char.isDigit
  match whole, cs.dropWhile Char.isDigit with
  | [], _ => none
  | _ :: _, [] => ofDigits? negative whole []
  | _ :: _, '.' :: fraction =>
    if fraction ≠ [] ∧ fraction.all Char.isDigit then ofDigits? negative whole fraction
    else none
  | _ :: _, _ :: _ => none

/-- The decimal that a text stands for, with a negative zero read as plain zero. -/
def read? (cs : List Char) : Option Decimal :=
  match cs with
  | '-' :: rest => (readUnsigned? true rest).map withoutNegativeZero
  | _ => readUnsigned? false cs

end Decimal

end GuardedMachine
