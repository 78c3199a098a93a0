/-
# Dictionaries and records

Two plain kinds of objects: a dictionary holds a value under each of its names, and a record
holds a value or another record.
-/
import GuardedMachine.Fields.Basic

namespace GuardedMachine

/-- A finite map from names to values; the first entry of a name counts. -/
structure Dictionary where
  /-- The names and their values. -/
  entries : List (String × Value)

instance : HasFields Dictionary :=
  ⟨fun dictionary name =>
    (dictionary.entries.find? fun e => e.1 == name).map fun e => .scalar e.2⟩

/-- Named fields with values or records in them; the first field of a name counts. -/
inductive Record
  | ofFields (fields : List (String × Field Record))

/-- The names of a record with what they hold. -/
def Record.fields : Record → List (String × Field Record)
  | .ofFields fields => fields

instance : HasFields Record :=
  ⟨fun record name => (record.fields.find? fun f => f.1 == name).map (·.2)⟩

end GuardedMachine
