/-
# Labels

The components of states and the events are labels: each has a name, and the name determines
it.  A vocabulary is a list of names without repetition, and its labels are the positions in
the list.
-/
import GuardedMachine.Text.Described

namespace GuardedMachine

/-- The types whose elements are determined by their names. -/
class Named (L : Type) where
  /-- The name of a label. -/
  name : L → String
  /-- The label with a name. -/
  ofName? : String → Option L
  ofName?_name : ∀ l, ofName? (name l) = some l

export Named (name)

/-- Names without repetition. -/
structure Vocabulary where
  /-- The names, in order. -/
  names : List String
  nodup : names.Nodup

/-- A label of a vocabulary. -/
structure Label (v : Vocabulary) where
  /-- The position of its name. -/
  index : Fin v.names.length
deriving DecidableEq

namespace Label

variable {v : Vocabulary}

/-- All labels of a vocabulary, in order. -/
def all (v : Vocabulary) : List (Label v) := (List.finRange v.names.length).map Label.mk

/-- The name at the position of a label. -/
def text (l : Label v) : String := v.names[l.index]

/-- Two labels with one name are the same. -/
theorem eq_of_text_eq {k l : Label v} (h : k.text = l.text) : k = l := by
  obtain ⟨i⟩ := k
  obtain ⟨j⟩ := l
  have distinct := List.pairwise_iff_getElem.1 v.nodup
  rcases Nat.lt_trichotomy i j with hij | hij | hij
  · exact absurd h (distinct i j i.isLt j.isLt hij)
  · exact congrArg mk (Fin.ext hij)
  · exact absurd h.symm (distinct j i j.isLt i.isLt hij)

/-- The label with a name. -/
def ofText? (name : String) : Option (Label v) := (all v).find? fun l => l.text == name

theorem ofText?_text (l : Label v) : ofText? l.text = some l := by
  have hmem : l ∈ all v := List.mem_map.2 ⟨l.index, List.mem_finRange _, rfl⟩
  cases h : ofText? (v := v) l.text with
  | none =>
    have := List.find?_eq_none.1 h l hmem
    simp at this
  | some k =>
    have hk : k.text = l.text := by simpa using List.find?_some h
    rw [eq_of_text_eq hk]

instance : Named (Label v) := ⟨text, ofText?, ofText?_text⟩

instance : Described (Label v) := ⟨text⟩

end Label

end GuardedMachine
