/-
# Paths

A path names a field by the root object it starts from and the names of the fields on the
way, and is written `#.a.b` for the subject and `$.a.b` for the context of a dispatch.
-/

namespace GuardedMachine

/-- The two root objects that a path can start from. -/
inductive Scope
  /-- The subject whose state is dispatched. -/
  | subject
  /-- The context of one dispatch. -/
  | context
deriving DecidableEq, Repr

/-- The character that a path with this root starts with. -/
def Scope.sigil : Scope → Char
  | .subject => '#'
  | .context => '$'

/-- A root and the names of the fields to follow from it. -/
structure Path where
  /-- The root object. -/
  scope : Scope
  /-- The names of the fields, outermost first. -/
  segments : List String
deriving DecidableEq, Repr

/-- The text of a path. -/
def Path.toText (p : Path) : String :=
  p.segments.foldl (fun text segment => text ++ "." ++ segment) (String.singleton p.scope.sigil)

end GuardedMachine
