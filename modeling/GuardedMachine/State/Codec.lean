/-
# States as documents

A state is written as the array of its slots: the document of the label, or null for an open
slot.  How labels are written and read is up to their type (`JsonCodec`); those of a vocabulary
are written as their names.  Reading accepts exactly the arrays of the right length whose items
are null or read as a label; a wrong item is found before a wrong length.

Null is an open slot before it is anything else.  So states are read back only if labels are, and
if no label is written as null: the codec must be lawful (`JsonCodec.Lawful`).
-/
import GuardedMachine.Json.Basic
import GuardedMachine.State.Composite

namespace GuardedMachine

/-- Why a document is not a state. -/
inductive StateDocumentError
  /-- It is no array, or an item is neither null nor a label. -/
  | malformed
  /-- It is an array of the wrong length. -/
  | wrongLength (length : Nat)
deriving DecidableEq, Repr

/-- The description of an array of the wrong length. -/
def StateDocumentError.message? : StateDocumentError → Option String
  | .malformed => none
  | .wrongLength length =>
    some ("invalid length " ++ length.repr ++ ", expected one entry per state component")

/-! ## The documents of labels -/

/-- The types whose elements are written as documents, and read. -/
class JsonCodec (L : Type) where
  /-- The document of a label. -/
  toJson : L → Json
  /-- The label that a document is read as. -/
  ofJson? : Json → Option L

/-- What states rely on: labels are read back, and null is left to open slots. -/
structure JsonCodec.Lawful (L : Type) [JsonCodec L] : Prop where
  ofJson?_toJson : ∀ l : L, ofJson? (toJson l) = some l
  toJson_ne_null : ∀ l : L, toJson l ≠ .null

namespace Label

variable {v : Vocabulary}

/-- The label that a document names: its name, or an object with the name as its only key and
null as its value. -/
def ofJson? : Json → Option (Label v)
  | .string s => Named.ofName? s
  | .object [(s, .null)] => Named.ofName? s
  | _ => none

instance : JsonCodec (Label v) := ⟨fun l => .string (name l), ofJson?⟩

end Label

/-! ## The documents of states -/

namespace Composite

variable {L : Type} [JsonCodec L] {n : Nat}

/-- The document of a slot. -/
def slotToJson : Option L → Json
  | some l => JsonCodec.toJson l
  | none => .null

/-- The slot that a document describes. -/
def slotOfJson? : Json → Option (Option L)
  | .null => some none
  | document => (JsonCodec.ofJson? document).map some

/-- The document of a state. -/
def toJson (s : Composite L n) : Json := .array (s.slots.toList.map slotToJson)

/-- The state that a document describes. -/
def ofJson (document : Json) : Except StateDocumentError (Composite L n) :=
  match document with
  | .array items =>
    match items.mapM slotOfJson? with
    | some slots =>
      if h : slots.toArray.size = n then .ok ⟨⟨slots.toArray, h⟩⟩
      else .error (.wrongLength slots.length)
    | none => .error .malformed
  | _ => .error .malformed

end Composite

end GuardedMachine
