/-
# Descriptions

A description is a text that shows all parts of a thing, as messages use it.  This file has
the forms in which optional parts and lists of parts are shown.
-/

namespace GuardedMachine

/-- The types whose elements have a description. -/
class Described (α : Type) where
  /-- The text that shows all parts. -/
  describe : α → String

export Described (describe)

namespace Text

/-- The parts of a list with commas in between, and something around them. -/
def enclosed (left right : String) (parts : List String) : String :=
  left ++ ", ".intercalate parts ++ right

/-- The description of a part that may be missing. -/
def describeOption (part : Option String) : String :=
  match part with
  | some text => "Some(" ++ text ++ ")"
  | none => "None"

end Text

end GuardedMachine
