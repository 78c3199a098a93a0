/-
# The documents of states

A document is read as a state if it is an array with one item for each slot, and each item is a
document of its slot: null for an open one, else a document other than null that is read as the
label.  A state is written as such an array if each of its labels is written as a document of that
kind, and this is what it takes to read the state back (`Composite.ofJson_toJson_iff`).  A lawful
codec provides it.  A label that is written as null cannot be told from an open slot.

All items are read before they are counted.  So an item that is no document of a slot is found in
an array of any length, and the error of the length is for arrays of documents of slots only.
-/
import Mathlib.Data.List.Forall2
import GuardedMachine.State.Codec

namespace GuardedMachine

variable {L : Type} [JsonCodec L] {n : Nat}

/-! ## Documents of labels and of slots -/

namespace Label

variable {v : Vocabulary} {l : Label v} {document : Json}

/-- A label is read from its name, and from an object with its name as the only key and null as the
value. -/
lemma ofJson?_eq_some_iff :
    ofJson? document = some l ↔
      document = .string l.text ∨ document = .object [(l.text, .null)] := by
  have hname {s : String} (h : Named.ofName? s = some l) : l.text = s := by
    simpa using List.find?_some h
  constructor
  · intro h
    unfold ofJson? at h
    split at h
    · exact .inl (congrArg Json.string (hname h).symm)
    · exact .inr (by rw [hname h])
    · cases h
  · rintro (rfl | rfl) <;> exact ofText?_text l

lemma lawful (v : Vocabulary) : JsonCodec.Lawful (Label v) where
  ofJson?_toJson _ := ofJson?_eq_some_iff.2 (.inl rfl)
  toJson_ne_null _ := Json.noConfusion

end Label

namespace Composite

/-- The documents of a slot. -/
inductive SlotDocument : Option L → Json → Prop
  | opened : SlotDocument none .null
  | label {l : L} {document : Json} (hnull : document ≠ .null)
      (h : JsonCodec.ofJson? document = some l) : SlotDocument (some l) document

/-- Whether a document is one of some slot: it is null or read as a label. -/
def IsSlotDocument (L : Type) [JsonCodec L] (document : Json) : Prop :=
  document = .null ∨ ∃ l : L, JsonCodec.ofJson? document = some l

lemma SlotDocument.eq_none_iff {slot : Option L} {document : Json}
    (h : SlotDocument slot document) : slot = none ↔ document = .null := by
  cases h with
  | opened => simp
  | label hnull => simp [hnull]

lemma exists_slotDocument_iff {document : Json} :
    (∃ slot : Option L, SlotDocument slot document) ↔ IsSlotDocument L document := by
  constructor
  · rintro ⟨_, _ | ⟨-, h⟩⟩
    · exact .inl rfl
    · exact .inr ⟨_, h⟩
  · intro h
    by_cases hnull : document = .null
    · exact ⟨none, hnull ▸ .opened⟩
    · obtain ⟨l, hl⟩ := h.resolve_left hnull
      exact ⟨some l, .label hnull hl⟩

lemma slotOfJson?_eq_some_iff {document : Json} {slot : Option L} :
    slotOfJson? document = some slot ↔ SlotDocument slot document := by
  constructor
  · intro h
    unfold slotOfJson? at h
    split at h
    · cases h
      exact .opened
    · rename_i hnull
      obtain ⟨l, hl, rfl⟩ := Option.map_eq_some_iff.1 h
      exact .label hnull hl
  · rintro (_ | ⟨hnull, h⟩)
    · rfl
    · unfold slotOfJson?
      split
      · contradiction
      · rw [h]
        rfl

lemma slotOfJson?_eq_none_iff {document : Json} :
    slotOfJson? (L := L) document = none ↔ ¬ IsSlotDocument L document := by
  rw [← exists_slotDocument_iff, not_exists, Option.eq_none_iff_forall_ne_some]
  simp only [ne_eq, slotOfJson?_eq_some_iff]

/-- A slot is written as one of its documents unless its label is written as null, or as a document
that is not read as the label. -/
lemma slotDocument_slotToJson_iff {slot : Option L} :
    SlotDocument slot (slotToJson slot) ↔
      ∀ l, slot = some l → JsonCodec.toJson l ≠ .null ∧
        JsonCodec.ofJson? (JsonCodec.toJson l) = some l := by
  constructor
  · rintro h l rfl
    cases h with
    | label hnull h => exact ⟨hnull, h⟩
  · intro h
    cases slot with
    | none => exact .opened
    | some l => exact .label (h l rfl).1 (h l rfl).2

/-! ## Documents of states -/

/-- Items are read as slots if each of them is a document of its slot. -/
lemma mapM_slotOfJson?_eq_some_iff {items : List Json} {slots : List (Option L)} :
    items.mapM slotOfJson? = some slots ↔ List.Forall₂ SlotDocument slots items := by
  induction items generalizing slots with
  | nil => simp [eq_comm]
  | cons item items ih =>
    simp only [List.mapM_cons, List.forall₂_cons_right_iff, ← ih, ← slotOfJson?_eq_some_iff]
    cases slotOfJson? (L := L) item <;> cases items.mapM (slotOfJson? (L := L)) <;>
      simp [eq_comm]

/-- One item that is no document of a slot is enough. -/
lemma mapM_slotOfJson?_eq_none_iff {items : List Json} :
    items.mapM (slotOfJson? (L := L)) = none ↔ ∃ item ∈ items, ¬ IsSlotDocument L item := by
  simp only [← slotOfJson?_eq_none_iff]
  induction items with
  | nil => simp
  | cons item items ih =>
    rw [List.mapM_cons]
    cases h : slotOfJson? (L := L) item with
    | none => simp [h]
    | some slot =>
      simp only [Option.bind_eq_bind, Option.bind_some, List.exists_mem_cons_iff, h, ← ih]
      cases hrest : items.mapM (slotOfJson? (L := L)) <;> simp

/-- A document is read as a state if it is an array of documents of its slots. -/
lemma ofJson_eq_ok_iff {document : Json} {s : Composite L n} :
    ofJson document = .ok s ↔
      ∃ items, document = .array items ∧ List.Forall₂ SlotDocument s.slots.toList items := by
  obtain ⟨slots, rfl⟩ := s
  constructor
  · intro h
    unfold ofJson at h
    split at h
    · rename_i items
      split at h
      · rename_i slots hslots
        split at h
        · cases h
          exact ⟨items, rfl, mapM_slotOfJson?_eq_some_iff.1 hslots⟩
        · cases h
      · cases h
    · cases h
  · rintro ⟨items, rfl, hitems⟩
    simp [ofJson, mapM_slotOfJson?_eq_some_iff.2 hitems]

/-- A state is read back if and only if all its labels are read back from documents other than
null. -/
lemma ofJson_toJson_iff {s : Composite L n} :
    ofJson s.toJson = .ok s ↔
      ∀ l, some l ∈ s.slots → JsonCodec.toJson l ≠ .null ∧
        JsonCodec.ofJson? (JsonCodec.toJson l) = some l := by
  have hslots : (∃ items, s.toJson = .array items ∧
      List.Forall₂ SlotDocument s.slots.toList items) ↔
        ∀ slot ∈ s.slots, SlotDocument slot (slotToJson slot) := by
    simp [toJson, List.forall₂_map_right_iff, List.forall₂_same]
  rw [ofJson_eq_ok_iff, hslots]
  simp only [slotDocument_slotToJson_iff]
  constructor
  · exact fun h l hl => h (some l) hl l rfl
  · rintro h _ hslot l rfl
    exact h l hslot

/-- A lawful codec writes a state as documents of its slots. -/
lemma forall₂_toJson (hlawful : JsonCodec.Lawful L) (s : Composite L n) :
    List.Forall₂ SlotDocument s.slots.toList (s.slots.toList.map slotToJson) := by
  rw [List.forall₂_map_right_iff, List.forall₂_same]
  exact fun _ _ => slotDocument_slotToJson_iff.2 fun l _ =>
    ⟨hlawful.toJson_ne_null l, hlawful.ofJson?_toJson l⟩

section Items

variable {s : Composite L n} {items : List Json}

lemma length_eq_of_forall₂ (h : List.Forall₂ SlotDocument s.slots.toList items) :
    items.length = n := by
  rw [← h.length_eq, Vector.length_toList]

lemma isSlotDocument_of_forall₂ (h : List.Forall₂ SlotDocument s.slots.toList items) :
    ∀ item ∈ items, IsSlotDocument L item := by
  intro item hitem
  by_contra hne
  have hnone := mapM_slotOfJson?_eq_none_iff.2 ⟨item, hitem, hne⟩
  rw [mapM_slotOfJson?_eq_some_iff.2 h] at hnone
  cases hnone

/-- Each item is a document of its slot, so the slot is open if and only if the item is null. -/
lemma slotDocument_component? (h : List.Forall₂ SlotDocument s.slots.toList items) (i : Nat)
    (hi : i < items.length) :
    SlotDocument (s.component? i) items[i] ∧ (s.component? i = none ↔ items[i] = .null) := by
  have hn : i < n := length_eq_of_forall₂ h ▸ hi
  have hdocument : SlotDocument (s.component? i) items[i] := by
    simpa [component?, hn] using h.get (by simpa using hn) hi
  exact ⟨hdocument, hdocument.eq_none_iff⟩

end Items

/-- An array of documents of slots is read as a state if it has the right length; otherwise it has
the wrong length. -/
lemma ofJson_array {items : List Json} (hitems : ∀ item ∈ items, IsSlotDocument L item) :
    (items.length = n → ∃ s : Composite L n, ofJson (.array items) = .ok s) ∧
      (items.length ≠ n → ofJson (L := L) (n := n) (.array items)
        = .error (.wrongLength items.length)) := by
  cases h : items.mapM (slotOfJson? (L := L)) with
  | none =>
    obtain ⟨item, hitem, hne⟩ := mapM_slotOfJson?_eq_none_iff.1 h
    exact absurd (hitems item hitem) hne
  | some slots =>
    have hlength : slots.length = items.length :=
      (mapM_slotOfJson?_eq_some_iff.1 h).length_eq
    constructor
    · rintro rfl
      exact ⟨⟨⟨slots.toArray, hlength⟩⟩, by simp [ofJson, h, hlength]⟩
    · intro hne
      simp [ofJson, h, hlength, hne]

/-- An item that is no document of a slot is found before the items are counted. -/
lemma ofJson_array_malformed {items : List Json}
    (hitem : ∃ item ∈ items, ¬ IsSlotDocument L item) :
    ofJson (L := L) (n := n) (.array items) = .error .malformed := by
  simp only [ofJson, mapM_slotOfJson?_eq_none_iff.2 hitem]

/-- A label that is written as null comes back as an open slot. -/
example :
    letI : JsonCodec Unit := ⟨fun _ => .null, fun _ => some ()⟩
    ofJson (single ()).toJson = .ok (⟨#v[none]⟩ : Composite Unit 1) := by rfl

end Composite

end GuardedMachine
