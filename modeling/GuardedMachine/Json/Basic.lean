/-
# Documents

A document is a tree of the JSON kinds.  Its numbers keep the distinction that reading makes:
a plain integer token in the range of 64-bit integers, signed or unsigned, is that integer,
and every other number is the double nearest to it.
-/
import GuardedMachine.Binary64.Basic

namespace GuardedMachine

/-- Whether an integer is a signed or an unsigned integer of 64 bits. -/
def InInt64OrUInt64 (n : Int) : Prop := -9223372036854775808 ≤ n ∧ n < 18446744073709551616

instance (n : Int) : Decidable (InInt64OrUInt64 n) :=
  inferInstanceAs (Decidable (_ ∧ _))

namespace Json

/-- A number of a document. -/
inductive Number
  /-- An integer of 64 bits, signed or unsigned. -/
  | integer (n : Int) (inRange : InInt64OrUInt64 n)
  /-- Any other number. -/
  | double (x : Binary64)
deriving DecidableEq

/-- The number that a token stands for: its digits before and after the point, as one list,
the number of those after the point, and its exponent.  A token of digits alone is `plain`.
A negative integer zero is a double, which can keep the sign. -/
def Number.ofToken? (negative plain : Bool) (digits : List Char) (places : Nat)
    (exponent : Int) : Option Number :=
  let magnitude := Nat.ofDigitChars 10 digits 0
  let n : Int := if negative then -(magnitude : Int) else magnitude
  if h : (plain && !(negative && magnitude == 0)) = true ∧ InInt64OrUInt64 n then
    some (.integer n h.2)
  else
    (Binary64.ofLiteral? negative magnitude (exponent - places)).map .double

end Json

/-- A document. -/
inductive Json
  | null
  | bool (b : Bool)
  | number (n : Json.Number)
  | string (s : String)
  | array (items : List Json)
  /-- The members of an object, each key once. -/
  | object (members : List (String × Json))

namespace Json

/-- The value of the member with the given key. -/
def member? (members : List (String × Json)) (key : String) : Option Json :=
  (members.find? fun m => m.1 == key).map (·.2)

/-- The members with the value of one key set: replaced if there is one, else put last. -/
def setMember (key : String) (value : Json) : List (String × Json) → List (String × Json)
  | [] => [(key, value)]
  | m :: rest =>
    if m.1 == key then (key, value) :: rest else m :: setMember key value rest

end Json

end GuardedMachine
