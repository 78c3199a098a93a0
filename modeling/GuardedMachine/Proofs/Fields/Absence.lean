/-
# Absent fields and null fields

A field that is not there and a field that holds null are read alike, wherever they are met: at
the end of a path, on the way, or in place of the root.  So two objects are alike if they differ
in nothing else, at any depth (`Alike`).  Objects may be of different types and may contain
themselves; therefore being alike is defined not by recursion, but by a relation that holds of
the objects and, with any two objects, of what their fields hold.

The only path that tells an absent root from one without fields is the one without segments.
-/
import Mathlib.Tactic.Lemma
import GuardedMachine.Expr.Evaluation
import GuardedMachine.Fields.Json

namespace GuardedMachine

variable {α β : Type} [HasFields α] [HasFields β]

/-! ## Objects that are alike -/

/-- A field that is not there, or that holds null. -/
def Missing (f : Option (Field α)) : Prop := f = none ∨ f = some (.scalar .null)

/-- Two fields are alike if both are missing, or they hold the same value, or objects in the
relation `R`. -/
inductive FieldsAlike (R : α → β → Prop) : Option (Field α) → Option (Field β) → Prop
  | missing {f : Option (Field α)} {g : Option (Field β)} : Missing f → Missing g →
    FieldsAlike R f g
  | scalar (v : Value) : FieldsAlike R (some (.scalar v)) (some (.scalar v))
  | object {o : α} {o' : β} : R o o' → FieldsAlike R (some (.object o)) (some (.object o'))

/-- Objects that differ only in that some fields, at any depth, are absent in one and null in
the other. -/
def Alike (o : α) (o' : β) : Prop :=
  ∃ R : α → β → Prop,
    (∀ o o', R o o' → ∀ name, FieldsAlike R (field? o name) (field? o' name)) ∧ R o o'

omit [HasFields α] [HasFields β] in
lemma FieldsAlike.mono {R R' : α → β → Prop} (hR : ∀ o o', R o o' → R' o o')
    {f : Option (Field α)} {g : Option (Field β)} (h : FieldsAlike R f g) :
    FieldsAlike R' f g := by
  cases h with
  | missing hf hg => exact .missing hf hg
  | scalar v => exact .scalar v
  | object h => exact .object (hR _ _ h)

omit [HasFields α] [HasFields β] in
lemma FieldsAlike.missing_iff {R : α → β → Prop} {f : Option (Field α)} {g : Option (Field β)}
    (h : FieldsAlike R f g) : Missing f ↔ Missing g := by
  cases h with
  | missing hf hg => exact iff_of_true hf hg
  | scalar v => simp [Missing]
  | object h => simp [Missing]

/-- The fields of objects that are alike are alike. -/
lemma Alike.field? {o : α} {o' : β} (h : Alike o o') (name : String) :
    FieldsAlike Alike (field? o name) (field? o' name) := by
  obtain ⟨R, hR, ho⟩ := h
  exact (hR o o' ho name).mono fun p p' hp => ⟨R, hR, hp⟩

/-- Roots that are alike: an absent one is like one all of whose fields are missing. -/
inductive RootsAlike : Option α → Option β → Prop
  | none : RootsAlike none none
  | some {o : α} {o' : β} : Alike o o' → RootsAlike (some o) (some o')
  | noneSome {o' : β} : (∀ name, Missing (HasFields.field? o' name)) →
    RootsAlike .none (.some o')
  | someNone {o : α} : (∀ name, Missing (HasFields.field? o name)) →
    RootsAlike (.some o) .none

/-! ## Following a path -/

/-- Follow the remaining names of a path from a field that may be absent. -/
def followField (path : Path) (f : Option (Field α)) (segments : List String) :
    Except EvalError Value :=
  match f with
  | some f => follow path f segments
  | none => .ok .null

lemma followField_missing {f : Option (Field α)} (h : Missing f) (path : Path)
    (segments : List String) : followField path f segments = .ok .null := by
  rcases h with rfl | rfl
  · rfl
  · cases segments with
    | nil => rfl
    | cons segment rest => rfl

lemma followField_object (path : Path) (o : α) (segment : String) (rest : List String) :
    followField path (some (.object o)) (segment :: rest)
      = followField path (field? o segment) rest := by
  rw [followField, follow]
  cases HasFields.field? o segment <;> rfl

/-- Fields that are alike lead to the same value, or to the same error. -/
lemma followField_eq_of_alike {f : Option (Field α)} {g : Option (Field β)}
    (h : FieldsAlike Alike f g) (path : Path) (segments : List String) :
    followField path f segments = followField path g segments := by
  induction segments generalizing f g with
  | nil =>
    cases h with
    | missing hf hg => rw [followField_missing hf, followField_missing hg]
    | scalar v => rfl
    | object => rfl
  | cons segment rest ih =>
    cases h with
    | missing hf hg => rw [followField_missing hf, followField_missing hg]
    | scalar v => cases v <;> rfl
    | object h => rw [followField_object, followField_object, ih (h.field? segment)]

lemma resolve_some_cons (o : α) {path : Path} {segment : String} {rest : List String}
    (hpath : path.segments = segment :: rest) :
    resolve (some o) path = followField path (field? o segment) rest := by
  rw [resolve, hpath]
  exact followField_object path o segment rest

/-- A path with a segment leads to the same from roots that are alike. -/
lemma resolve_eq_of_alike {root : Option α} {root' : Option β} (h : RootsAlike root root')
    {path : Path} (hpath : path.segments ≠ []) : resolve root path = resolve root' path := by
  obtain ⟨segment, rest, hsegments⟩ := List.exists_cons_of_ne_nil hpath
  cases h with
  | none => rfl
  | some h =>
    rw [resolve_some_cons _ hsegments, resolve_some_cons _ hsegments]
    exact followField_eq_of_alike (h.field? segment) path rest
  | noneSome h =>
    rw [resolve_some_cons _ hsegments, followField_missing (h segment)]
    rfl
  | someNone h =>
    rw [resolve_some_cons _ hsegments, followField_missing (h segment)]
    rfl

/-- Without a segment, an absent root is told from one without fields. -/
example (scope : Scope) : resolve (none : Option Unit) ⟨scope, []⟩ = .ok .null ∧
    resolve (some ()) ⟨scope, []⟩ = .error (.objectValue ⟨scope, []⟩) := ⟨rfl, rfl⟩

/-! ## Documents that are alike -/

namespace Json

/-- Documents that differ only in that some members, and some items at the end of arrays, are
absent in one and null in the other. -/
inductive AlikeJson : Json → Json → Prop
  | refl (j : Json) : AlikeJson j j
  | array {items items' : List Json} :
    (∀ i : Nat, AlikeJson (items[i]?.getD .null) (items'[i]?.getD .null)) →
      AlikeJson (.array items) (.array items')
  | object {members members' : List (String × Json)} :
    (∀ key, AlikeJson ((member? members key).getD .null) ((member? members' key).getD .null)) →
      AlikeJson (.object members) (.object members')

lemma AlikeJson.child? {j j' : Json} (h : AlikeJson j j') (name : String) :
    AlikeJson ((j.child? name).getD .null) ((j'.child? name).getD .null) := by
  cases h with
  | refl => exact .refl _
  | @array items items' h =>
    rw [Json.child?, Json.child?]
    cases position? name with
    | none => exact .refl _
    | some i => exact h i
  | object h => exact h name

lemma AlikeJson.toField? {j j' : Json} (h : AlikeJson j j') :
    FieldsAlike AlikeJson j.toField? j'.toField? := by
  cases h with
  | refl =>
    rcases hfield : j.toField? with _ | (v | o)
    · exact .missing (Or.inl rfl) (Or.inl rfl)
    · exact .scalar v
    · exact .object (.refl o)
  | array h => exact .object (.array h)
  | object h => exact .object (.object h)

/-- A document that is not there is read as null is. -/
lemma bind_toField?_eq_or_missing (c : Option Json) :
    c.bind toField? = (c.getD .null).toField? ∨
      Missing (c.bind toField?) ∧ Missing (c.getD .null).toField? := by
  cases c with
  | none => exact Or.inr ⟨Or.inl rfl, Or.inr rfl⟩
  | some j => exact Or.inl rfl

lemma fieldsAlike_bind {R : Json → Json → Prop} {c c' : Option Json}
    (h : FieldsAlike R (c.getD .null).toField? (c'.getD .null).toField?) :
    FieldsAlike R (c.bind toField?) (c'.bind toField?) := by
  have hmissing := h.missing_iff
  rcases bind_toField?_eq_or_missing c with hc | ⟨hc, hnull⟩
  · rcases bind_toField?_eq_or_missing c' with hc' | ⟨hc', hnull'⟩
    · rw [hc, hc']
      exact h
    · rw [hc]
      exact .missing (hmissing.2 hnull') hc'
  · refine .missing hc ?_
    rcases bind_toField?_eq_or_missing c' with hc' | ⟨hc', -⟩
    · rw [hc']
      exact hmissing.1 hnull
    · exact hc'

/-- Documents that are alike are alike as objects. -/
lemma AlikeJson.alike {j j' : Json} (h : AlikeJson j j') : Alike j j' := by
  refine ⟨AlikeJson, fun j j' h name => ?_, h⟩
  exact fieldsAlike_bind (h.child? name).toField?

/-- Nulls at the end of an array make no difference. -/
lemma alikeJson_append_null (items : List Json) (k : Nat) :
    AlikeJson (.array items) (.array (items ++ List.replicate k .null)) := by
  refine .array fun i => ?_
  rcases Nat.lt_or_ge i items.length with hlt | hge
  · rw [List.getElem?_append_left hlt]
    exact .refl _
  · rw [List.getElem?_append_right hge, List.getElem?_eq_none hge, List.getElem?_replicate]
    split
    · exact .refl _
    · exact .refl _

lemma member?_cons (m : String × Json) (rest : List (String × Json)) (key : String) :
    member? (m :: rest) key = if m.1 = key then some m.2 else member? rest key := by
  by_cases hkey : m.1 = key <;> simp [member?, hkey]

end Json

end GuardedMachine
