/-
# Documents, records and dictionaries

Three kinds of objects can hold the same data: a JSON object, a record, and, if no object is
inside another one, a dictionary.  No expression tells them apart (`Interchangeable`).

Objects that are alike are interchangeable, because a path leads to the same from both of them.
So it is enough to compare objects field by field.  An object of any type shows a document if it
has the fields that the document has members, with the values of the scalars and objects that
show the objects in it (`Json.Shows`).  A document without arrays, whose numbers are integers of
64 bits, is shown by the record made of it, and if it is flat, by the dictionary made of it.
-/
import GuardedMachine.Fields.Record
import GuardedMachine.Proofs.Expr.Paths
import GuardedMachine.Proofs.Fields.Absence

namespace GuardedMachine

variable {α β γ : Type} [HasFields α] [HasFields β] [HasFields γ]

/-! ## Objects in place of each other -/

/-- Two objects are interchangeable if every expression has the same evaluation with one in place
of the other, as the subject and as the context, whatever the other root is. -/
def Interchangeable (o : α) (o' : β) : Prop :=
  ∀ (e : Expr) {δ : Type} [HasFields δ] (other : Option δ),
    e.evaluate ⟨some o, other⟩ = e.evaluate ⟨some o', other⟩ ∧
      e.evaluate ⟨other, some o⟩ = e.evaluate ⟨other, some o'⟩

lemma Interchangeable.symm {o : α} {o' : β} (h : Interchangeable o o') : Interchangeable o' o :=
  fun e _ _ other => ⟨(h e other).1.symm, (h e other).2.symm⟩

lemma Interchangeable.trans {o : α} {o' : β} {o'' : γ} (h : Interchangeable o o')
    (h' : Interchangeable o' o'') : Interchangeable o o'' :=
  fun e _ _ other =>
    ⟨(h e other).1.trans (h' e other).1, (h e other).2.trans (h' e other).2⟩

/-- A path leads to the same from objects that are alike, also the path without segments. -/
lemma Alike.resolve_eq {o : α} {o' : β} (h : Alike o o') (path : Path) :
    resolve (some o) path = resolve (some o') path := by
  by_cases hsegments : path.segments = []
  · rw [resolve, resolve, hsegments, follow, follow]
  · exact resolve_eq_of_alike (.some h) hsegments

/-- Objects that are alike are interchangeable. -/
lemma Alike.interchangeable {o : α} {o' : β} (h : Alike o o') : Interchangeable o o' := by
  intro e δ _ other
  constructor
  · refine Expr.evaluate_eq_of_resolve_eq fun path _ => ?_
    cases hscope : path.scope <;> simp only [Bindings.resolve, hscope]
    exact h.resolve_eq path
  · refine Expr.evaluate_eq_of_resolve_eq fun path _ => ?_
    cases hscope : path.scope <;> simp only [Bindings.resolve, hscope]
    exact h.resolve_eq path

/-! ## Documents that are shown by other objects -/

namespace Json

/-- The value of a scalar, if it is no number other than an integer of 64 bits. -/
def scalarValue? : Json → Option Value
  | .null => some .null
  | .bool b => some (.bool b)
  | .string s => some (.string s)
  | .number (.integer n inRange) => some (.ofInt n (Value.natAbs_le_maxMantissa inRange))
  | .number (.double _) | .array _ | .object _ => none

/-- What a field of an object holds is what a document is: the value of a scalar, or an object
that has exactly the fields that the document has members, and shows the same in each. -/
inductive Shows : Json → Field α → Prop
  | scalar {document : Json} {v : Value} :
      document.scalarValue? = some v → Shows document (.scalar v)
  | object {members : List (String × Json)} {o : α} :
    (∀ name, member? members name = none ↔ HasFields.field? o name = none) →
    (∀ name document f, member? members name = some document →
      HasFields.field? o name = some f → Shows document f) →
      Shows (.object members) (.object o)

lemma toField?_of_scalarValue? {document : Json} {v : Value} (h : document.scalarValue? = some v) :
    document.toField? = some (.scalar v) := by
  rcases document with _ | b | (⟨n, inRange⟩ | x) | s | items | members <;> cases h <;> rfl

/-- A document and an object that shows it are alike. -/
lemma Shows.alike {members : List (String × Json)} {o : α}
    (h : Shows (.object members) (.object o)) : Alike (Json.object members) o := by
  refine ⟨fun document o => Shows document (.object o), fun document o h name => ?_, h⟩
  cases h with
  | @object members o hnone hsome =>
    show FieldsAlike _ ((member? members name).bind toField?) (HasFields.field? o name)
    cases hmember : member? members name with
    | none =>
      rw [(hnone name).1 hmember]
      exact .missing (Or.inl rfl) (Or.inl rfl)
    | some document =>
      cases hfield : HasFields.field? o name with
      | none => cases hmember.symm.trans ((hnone name).2 hfield)
      | some f =>
        cases hsome name document f hmember hfield with
        | scalar hv =>
          rw [Option.bind_some, toField?_of_scalarValue? hv]
          exact .scalar _
        | object hnone hsome => exact .object (.object hnone hsome)

/-- Documents of nested objects, strings, booleans, nulls and integers of 64 bits. -/
inductive Plain : Json → Prop
  | null : Plain .null
  | bool (b : Bool) : Plain (.bool b)
  | string (s : String) : Plain (.string s)
  | integer (n : Int) (inRange : InInt64OrUInt64 n) : Plain (.number (.integer n inRange))
  | object {members : List (String × Json)} : (∀ m ∈ members, Plain m.2) → Plain (.object members)

/-- A plain document is a scalar or an object with plain documents in it. -/
lemma Plain.cases {document : Json} (h : document.Plain) :
    (∃ v, document.scalarValue? = some v) ∨
      ∃ members, document = .object members ∧ ∀ m ∈ members, m.2.Plain := by
  cases h with
  | object hmembers => exact Or.inr ⟨_, rfl, hmembers⟩
  | _ => exact Or.inl ⟨_, rfl⟩

/-! ## The record and the dictionary of a document -/

mutual

/-- What a field of a record holds for a document. -/
def recordField? : Json → Option (Field Record)
  | .object members => some (.object (.ofFields (recordFields members)))
  | document => document.scalarValue?.map .scalar

/-- The fields of a record for the members of an object. -/
def recordFields : List (String × Json) → List (String × Field Record)
  | [] => []
  | (name, document) :: rest =>
    match recordField? document with
    | some f => (name, f) :: recordFields rest
    | none => recordFields rest

end

/-- The record with the names and the nesting of an object, and the values of its scalars. -/
def record (members : List (String × Json)) : Record := .ofFields (recordFields members)

/-- The dictionary with the scalars of an object. -/
def dictionary (members : List (String × Json)) : Dictionary :=
  ⟨members.filterMap fun m => m.2.scalarValue?.map fun v => (m.1, v)⟩

lemma recordField?_of_scalarValue? {document : Json} {v : Value}
    (h : document.scalarValue? = some v) :
    recordField? document = some (.scalar v) := by
  rcases document with _ | b | (⟨n, inRange⟩ | x) | s | items | members <;> cases h <;>
    simp [recordField?, scalarValue?]

lemma recordFields_eq_filterMap (members : List (String × Json)) :
    recordFields members
      = members.filterMap fun m => (recordField? m.2).map fun f => (m.1, f) := by
  induction members with
  | nil => rfl
  | cons m rest ih =>
    rw [recordFields, List.filterMap_cons]
    cases recordField? m.2 with
    | none => exact ih
    | some f => rw [Option.map_some, ih]

/-- Looking up a name before or after the members have been turned into something else. -/
lemma find?_filterMap {δ : Type} {g : Json → Option δ} {members : List (String × Json)}
    (h : ∀ m ∈ members, ∃ x, g m.2 = some x) (name : String) :
    ((members.filterMap fun m => (g m.2).map fun x => (m.1, x)).find?
      fun e => e.1 == name).map (fun e => e.2) = (member? members name).bind g := by
  induction members with
  | nil => rfl
  | cons m rest ih =>
    obtain ⟨x, hx⟩ := h m List.mem_cons_self
    have hrest := ih fun m hm => h m (List.mem_cons_of_mem _ hm)
    rw [List.filterMap_cons, hx, Option.map_some, List.find?_cons, member?_cons]
    by_cases hname : m.1 = name
    · rw [if_pos hname, beq_iff_eq.2 hname, Option.bind_some, hx]
      rfl
    · rw [if_neg hname, beq_eq_false_iff_ne.2 hname, hrest]

lemma exists_mem_of_member? {members : List (String × Json)} {name : String} {document : Json}
    (h : member? members name = some document) : ∃ m ∈ members, m.2 = document := by
  obtain ⟨m, hm, hdocument⟩ := Option.map_eq_some_iff.1 h
  exact ⟨m, List.mem_of_find?_eq_some hm, hdocument⟩

/-- An object shows a document if its fields are made of the members, and show them. -/
lemma shows_of_fields {members : List (String × Json)} {o : α} {g : Json → Option (Field α)}
    (hfield : ∀ name, HasFields.field? o name = (member? members name).bind g)
    (hshows : ∀ m ∈ members, ∃ f, g m.2 = some f ∧ Shows m.2 f) :
    Shows (.object members) (.object o) := by
  refine .object (fun name => ?_) fun name document f hmember hf => ?_
  · rw [hfield]
    cases hmember : member? members name with
    | none => simp
    | some document =>
      obtain ⟨m, hm, rfl⟩ := exists_mem_of_member? hmember
      obtain ⟨f, hf, -⟩ := hshows m hm
      simp [hf]
  · obtain ⟨m, hm, rfl⟩ := exists_mem_of_member? hmember
    obtain ⟨f', hf', hshown⟩ := hshows m hm
    rw [hfield, hmember, Option.bind_some, hf'] at hf
    exact Option.some.inj hf ▸ hshown

/-- A plain document is shown by what a record has for it. -/
lemma Plain.shows_recordField? {document : Json} (h : document.Plain) :
    ∃ f, recordField? document = some f ∧ Shows document f := by
  induction h with
  | @object members _ ih =>
    refine ⟨.object (record members), by rw [recordField?, record], shows_of_fields ?_ ih⟩
    intro name
    have hsome : ∀ m ∈ members, ∃ f, recordField? m.2 = some f := fun m hm =>
      (ih m hm).imp fun f hf => hf.1
    rw [← find?_filterMap hsome, ← recordFields_eq_filterMap]
    rfl
  | _ => exact ⟨.scalar _, recordField?_of_scalarValue? rfl, .scalar rfl⟩

lemma Plain.shows_record {members : List (String × Json)} (h : (Json.object members).Plain) :
    Shows (.object members) (.object (record members)) := by
  obtain ⟨f, hf, hshows⟩ := h.shows_recordField?
  rw [recordField?] at hf
  cases hf
  exact hshows

/-- A flat document is shown by the dictionary made of it. -/
lemma Plain.shows_dictionary {members : List (String × Json)} (h : (Json.object members).Plain)
    (hflat : ∀ m ∈ members, ∀ inner, m.2 ≠ .object inner) :
    Shows (.object members) (.object (dictionary members)) := by
  have hscalar : ∀ m ∈ members, ∃ v, m.2.scalarValue? = some v := by
    cases h with
    | object hmembers =>
      intro m hm
      rcases (hmembers m hm).cases with hv | ⟨inner, hinner, -⟩
      · exact hv
      · exact absurd hinner (hflat m hm inner)
  refine shows_of_fields (g := fun document => document.scalarValue?.map .scalar) (fun name => ?_)
    fun m hm => ?_
  · have hfind := congrArg (Option.map fun v => (Field.scalar v : Field Dictionary))
      (find?_filterMap hscalar name)
    rw [Option.map_map, Option.map_bind] at hfind
    exact hfind
  · obtain ⟨v, hv⟩ := hscalar m hm
    exact ⟨.scalar v, by rw [hv, Option.map_some], .scalar hv⟩

/-- **Documents, records and dictionaries are read alike.**  A plain document is interchangeable
with the record made of it, and with every object that shows it, whatever its type and the order of
its fields.  If there is no object inside it, all of them are interchangeable with the dictionary
made of it, too. -/
theorem interchangeable_of_plain {members : List (String × Json)}
    (h : (Json.object members).Plain) :
    Interchangeable (Json.object members) (record members) ∧
      (∀ {α : Type} [HasFields α] (o : α), Shows (.object members) (.object o) →
        Interchangeable (Json.object members) o) ∧
      ((∀ m ∈ members, ∀ inner, m.2 ≠ .object inner) →
        Interchangeable (Json.object members) (dictionary members) ∧
          Interchangeable (record members) (dictionary members)) := by
  have hrecord : Interchangeable (Json.object members) (record members) :=
    h.shows_record.alike.interchangeable
  refine ⟨hrecord, fun o ho => ho.alike.interchangeable, fun hflat => ?_⟩
  have hdictionary : Interchangeable (Json.object members) (dictionary members) :=
    (h.shows_dictionary hflat).alike.interchangeable
  exact ⟨hdictionary, hrecord.symm.trans hdictionary⟩

/-- A door inside a document, next to the greatest integer, and the door alone. -/
theorem interchangeable_of_plain_door :
    let door : List (String × Json) := [("open", .bool true), ("note", .null)]
    let members : List (String × Json) :=
      [("door", .object door), ("count", .number (.integer 18446744073709551615 (by decide)))]
    (Json.object members).Plain ∧ Interchangeable (Json.object members) (record members) ∧
      (Json.object door).Plain ∧ (∀ m ∈ door, ∀ inner, m.2 ≠ .object inner) ∧
        Interchangeable (Json.object door) (dictionary door) ∧
          Interchangeable (record door) (dictionary door) := by
  intro door members
  have hdoor : (Json.object door).Plain := by
    refine .object (List.forall_mem_cons.2 ⟨.bool true, List.forall_mem_singleton.2 .null⟩)
  have hmembers : (Json.object members).Plain :=
    .object (List.forall_mem_cons.2 ⟨hdoor, List.forall_mem_singleton.2 (.integer _ _)⟩)
  have hflat : ∀ m ∈ door, ∀ inner, m.2 ≠ .object inner := by simp [door]
  exact ⟨hmembers, (interchangeable_of_plain hmembers).1, hdoor, hflat,
    (interchangeable_of_plain hdoor).2.2 hflat⟩

end Json

end GuardedMachine
