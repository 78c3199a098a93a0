/-
# Objects with fields

Guards read subjects and contexts through their fields.  A field holds a scalar value or
another object of the same type; a field that is not there is absent.

`resolve` follows a path from a root object, one name at a time.  The result is null as soon
as the root or a field on the way is absent or null, so that guards on optional data are
safe.  Going on from any other scalar fails, and so does ending on an object.
-/
import GuardedMachine.Expr.EvalError

namespace GuardedMachine

/-- What a field of an object holds. -/
inductive Field (α : Type)
  /-- A value. -/
  | scalar (v : Value)
  /-- Another object. -/
  | object (o : α)

/-- The types of objects whose fields can be read. -/
class HasFields (α : Type) where
  /-- What the field with a name holds, if it is there. -/
  field? : α → String → Option (Field α)

export HasFields (field?)

/-- The object without fields. -/
instance : HasFields Unit := ⟨fun _ _ => none⟩

variable {α : Type} [HasFields α]

/-- Follow the remaining names of a path from what a field holds. -/
def follow (path : Path) : Field α → List String → Except EvalError Value
  | .scalar v, [] => .ok v
  | .object _, [] => .error (.objectValue path)
  | .object o, segment :: rest =>
    match field? o segment with
    | some next => follow path next rest
    | none => .ok .null
  | .scalar .null, _ :: _ => .ok .null
  | .scalar _, segment :: _ => .error (.scalarTraversal path segment)

/-- The value at the end of a path from a root object, which may be absent. -/
def resolve (root : Option α) (path : Path) : Except EvalError Value :=
  match root with
  | some o => follow path (.object o) path.segments
  | none => .ok .null

end GuardedMachine
