/-
# Values

What a guard expression can produce: null, a boolean, a decimal or a string.  Values are
compared by what they stand for (`same`): decimals by number, whatever their scale, and
values of different kinds never agree.
-/
import GuardedMachine.Decimal.Text
import GuardedMachine.Text.Quoted

namespace GuardedMachine

/-- The kinds of values. -/
inductive Kind
  | null
  | boolean
  | decimal
  | string
deriving DecidableEq, Repr

/-- The name of a kind. -/
def Kind.name : Kind → String
  | .null => "null"
  | .boolean => "boolean"
  | .decimal => "decimal"
  | .string => "string"

/-- A value. -/
inductive Value
  | null
  | bool (b : Bool)
  | decimal (d : Decimal)
  | string (s : String)
deriving DecidableEq, Repr

namespace Value

/-- The kind of a value. -/
def kind : Value → Kind
  | .null => .null
  | .bool _ => .boolean
  | .decimal _ => .decimal
  | .string _ => .string

/-- Whether a value is null. -/
def isNull : Value → Bool
  | .null => true
  | _ => false

/-- The boolean that a value is. -/
def bool? : Value → Option Bool
  | .bool b => some b
  | _ => none

/-- The decimal that a value is. -/
def decimal? : Value → Option Decimal
  | .decimal d => some d
  | _ => none

/-- The string that a value is. -/
def string? : Value → Option String
  | .string s => some s
  | _ => none

/-- Whether two values stand for the same thing. -/
def same : Value → Value → Bool
  | .null, .null => true
  | .bool a, .bool b => a == b
  | .decimal a, .decimal b => a.sameNumber b
  | .string a, .string b => a == b
  | _, _ => false

theorem same_refl (v : Value) : v.same v = true := by
  cases v <;> simp [same, Decimal.sameNumber_refl]

/-- Values of different kinds are not the same. -/
theorem kind_eq_of_same {v w : Value} (h : v.same w = true) : v.kind = w.kind := by
  cases v <;> cases w <;> simp_all [same, kind]

/-- The text of a value: strings are quoted, with the given characters taken to be invisible, and
decimals keep their scale. -/
def toTextBy (invisible : Char → Bool) : Value → String
  | .null => "null"
  | .bool true => "true"
  | .bool false => "false"
  | .decimal d => d.toText
  | .string s => Text.quoteBy invisible s

/-- The text of a value. -/
def toText (v : Value) : String := v.toTextBy Text.isInvisible

/-! ## Values of plain data -/

theorem natAbs_le_maxMantissa {n : Int} (h : -9223372036854775808 ≤ n ∧ n < 18446744073709551616) :
    n.natAbs ≤ maxMantissa := by
  simp only [maxMantissa]
  omega

/-- The value of an integer within the range of decimals. -/
def ofInt (n : Int) (h : n.natAbs ≤ maxMantissa) : Value := .decimal (.ofInt n h)

/-- The value of a signed integer of 64 bits. -/
def ofInt64 (n : Int64) : Value :=
  ofInt n.toInt (natAbs_le_maxMantissa (by
    have := n.le_toInt
    have := n.toInt_lt
    omega))

/-- The value of a signed integer of 32 bits. -/
def ofInt32 (n : Int32) : Value := ofInt64 n.toInt64

/-- The value of an unsigned integer of 64 bits. -/
def ofUInt64 (n : UInt64) : Value :=
  ofInt n.toNat (natAbs_le_maxMantissa (by
    have := n.toNat_lt
    omega))

/-- The value of an unsigned integer of 32 bits. -/
def ofUInt32 (n : UInt32) : Value := ofUInt64 n.toUInt64

/-- The value of an optional piece of data: null if there is none. -/
def ofOption {α : Type} (toValue : α → Value) : Option α → Value
  | none => .null
  | some a => toValue a

end Value

end GuardedMachine
