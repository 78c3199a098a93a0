/-
# The fields of a document

The fields of a JSON object are its members, and those of an array its items, named by
their positions.  Scalars have no fields.  A number that is no decimal is absent.
-/
import GuardedMachine.Binary64.Decimal
import GuardedMachine.Fields.Basic
import GuardedMachine.Json.Basic

namespace GuardedMachine

namespace Json

/-- The decimal of a number, if it has one. -/
def Number.toDecimal? : Number → Option Decimal
  | .integer n inRange => some (.ofInt n (Value.natAbs_le_maxMantissa inRange))
  | .double x => Decimal.ofBinary64? x

/-- What a field with this document holds: scalars are values, the others are objects. -/
def toField? : Json → Option (Field Json)
  | .null => some (.scalar .null)
  | .bool b => some (.scalar (.bool b))
  | .string s => some (.scalar (.string s))
  | .number n => n.toDecimal?.map fun d => .scalar (.decimal d)
  | .array items => some (.object (.array items))
  | .object members => some (.object (.object members))

/-- The position that a name stands for: an integer of 64 bits in decimal digits, with an
optional plus sign. -/
def position? (name : String) : Option Nat :=
  let digits :=
    match name.toList with
    | '+' :: rest => rest
    | cs => cs
  let n := Nat.ofDigitChars 10 digits 0
  if digits ≠ [] ∧ digits.all Char.isDigit ∧ n < UInt64.size then some n else none

/-- The document that a document holds under a name. -/
def child? : Json → String → Option Json
  | .object members, name => member? members name
  | .array items, name => (position? name).bind fun i => items[i]?
  | _, _ => none

instance : HasFields Json := ⟨fun document name => (document.child? name).bind toField?⟩

end Json

end GuardedMachine
