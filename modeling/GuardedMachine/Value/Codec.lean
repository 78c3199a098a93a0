/-
# Values as documents

A value is written as the name of its kind with its content: `"Null"`, or an object with one
member such as `Bool`.  Decimals are written as text, which keeps their scale, and may be
read from numbers too.
-/
import GuardedMachine.Binary64.Shortest
import GuardedMachine.Json.Basic
import GuardedMachine.Value.Basic

namespace GuardedMachine

/-- The decimal that a document holds: a text, an integer, or a double, which counts as the
decimal with its shortest digits. -/
def Decimal.ofJson? : Json → Option Decimal
  | .string s => read? s.toList
  | .number (.integer n inRange) => some (ofInt n (Value.natAbs_le_maxMantissa inRange))
  | .number (.double x) => ofShortest? x
  | _ => none

namespace Value

/-- The document of a value. -/
def toJson : Value → Json
  | .null => .string "Null"
  | .bool b => .object [("Bool", .bool b)]
  | .decimal d => .object [("Decimal", .string d.toText)]
  | .string s => .object [("String", .string s)]

/-- The value with the given tag and content. -/
def ofTagged? (tag : String) (content : Json) : Option Value :=
  match tag, content with
  | "Null", .null => some .null
  | "Bool", .bool b => some (.bool b)
  | "Decimal", content => (Decimal.ofJson? content).map .decimal
  | "String", .string s => some (.string s)
  | _, _ => none

/-- The value that a document holds. -/
def ofJson? : Json → Option Value
  | .string "Null" => some .null
  | .object [(tag, content)] => ofTagged? tag content
  | _ => none

end Value

end GuardedMachine
