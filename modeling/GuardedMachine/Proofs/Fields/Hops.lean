/-
# Resolution hop by hop

A path is resolved one name at a time, and each hop is the same small step: from an object a name
leads to what the field holds, null if there is no such field; from null every name leads to null;
and from another scalar no name leads anywhere.  Resolving a path is the fold of this step over
its names (`resolve_eq_outcome`), so a path can be cut anywhere: its first part decides all that
matters for the rest.

Which fields are looked up on the way follows from the same step.  A name that goes on from a
scalar is not looked up any more, so nothing behind the hop that decides a result is read.
-/
import GuardedMachine.Proofs.Fields.Absence

namespace GuardedMachine

variable {α : Type} [HasFields α]

/-! ## Hops -/

/-- What a name leads to from what a field holds.  From a scalar other than null it leads
nowhere, and is to blame. -/
def hop : Field α → String → Except String (Field α)
  | .object o, name => .ok ((field? o name).getD (.scalar .null))
  | .scalar .null, _ => .ok (.scalar .null)
  | .scalar _, name => .error name

/-- Where resolution starts: an absent root is like a field that holds null. -/
def Field.ofRoot : Option α → Field α
  | some o => .object o
  | none => .scalar .null

/-- What names lead to from a root, or the name that goes on from a scalar. -/
def reached (root : Option α) (names : List String) : Except String (Field α) :=
  names.foldlM hop (Field.ofRoot root)

/-- The result of a path that leads to a field, or gets stuck at a name. -/
def outcome (path : Path) : Except String (Field α) → Except EvalError Value
  | .ok (.scalar v) => .ok v
  | .ok (.object _) => .error (.objectValue path)
  | .error name => .error (.scalarTraversal path name)

/-- Null leads to null. -/
lemma foldlM_hop_null (names : List String) :
    names.foldlM hop (.scalar .null : Field α) = .ok (.scalar .null) := by
  induction names with
  | nil => rfl
  | cons name rest ih => exact ih

/-- From another scalar the first name leads nowhere. -/
lemma foldlM_hop_scalar {v : Value} (hv : v ≠ .null) (name : String) (rest : List String) :
    (name :: rest).foldlM hop (.scalar v : Field α) = .error name := by
  cases v with
  | null => exact absurd rfl hv
  | bool b => rfl
  | decimal d => rfl
  | string s => rfl

/-- Following names is the fold of the hops. -/
lemma follow_eq_outcome (path : Path) (f : Field α) (names : List String) :
    follow path f names = outcome path (names.foldlM hop f) := by
  induction names generalizing f with
  | nil => cases f <;> rfl
  | cons name rest ih =>
    cases f with
    | scalar v => cases v with
      | null => rw [foldlM_hop_null]; rfl
      | bool b => rfl
      | decimal d => rfl
      | string s => rfl
    | object o =>
      have hfollow : follow path (.object o) (name :: rest)
          = followField path (field? o name) rest :=
        followField_object path o name rest
      have hfold : (name :: rest).foldlM hop (.object o : Field α)
          = rest.foldlM hop ((field? o name).getD (.scalar .null)) := rfl
      rw [hfollow, hfold]
      cases field? o name with
      | none => rw [Option.getD_none, foldlM_hop_null]; rfl
      | some next => exact ih next

lemma resolve_eq_outcome (root : Option α) (path : Path) :
    resolve root path = outcome path (reached root path.segments) := by
  cases root with
  | none => rw [reached, Field.ofRoot, foldlM_hop_null]; rfl
  | some o => exact follow_eq_outcome path (.object o) path.segments

lemma reached_append (root : Option α) (xs ys : List String) :
    reached root (xs ++ ys) = (reached root xs).bind fun f => ys.foldlM hop f :=
  List.foldlM_append

section Outcome

variable {path p : Path} {x : Except String (Field α)}

omit [HasFields α]

lemma outcome_eq_ok_iff {v : Value} : outcome path x = .ok v ↔ x = .ok (.scalar v) := by
  rcases x with _ | (_ | _) <;> simp [outcome]

lemma outcome_eq_scalarTraversal_iff {name : String} :
    outcome path x = .error (.scalarTraversal p name) ↔ path = p ∧ x = .error name := by
  rcases x with _ | (_ | _) <;> simp [outcome]

lemma outcome_eq_objectValue_iff :
    outcome path x = .error (.objectValue p) ↔ path = p ∧ ∃ o, x = .ok (.object o) := by
  rcases x with _ | (_ | _) <;> simp [outcome]

end Outcome

/-- The error with another path in it. -/
def EvalError.inPath (path : Path) : EvalError → EvalError
  | .scalarTraversal _ name => .scalarTraversal path name
  | .objectValue _ => .objectValue path
  | error => error

omit [HasFields α] in
/-- The path of a result shows in its error only. -/
lemma outcome_eq_mapError (path p : Path) (x : Except String (Field α)) :
    outcome path x = (outcome p x).mapError fun error => error.inPath path := by
  rcases x with _ | (_ | _) <;> rfl

/-! ## Look-ups -/

/-- The fields that are looked up when names are followed: in which object, and under which
name. -/
def lookups : Field α → List String → List (α × String)
  | .object o, name :: rest => (o, name) :: lookups ((field? o name).getD (.scalar .null)) rest
  | _, _ => []

lemma lookups_scalar (v : Value) (names : List String) :
    lookups (.scalar v : Field α) names = [] := by
  cases names <;> rfl

section Append

variable {f g : Field α} {xs : List String}

/-- The look-ups of a path are those of its first part, and of the rest from where that leads. -/
lemma lookups_append_of_ok (h : xs.foldlM hop f = .ok g) (ys : List String) :
    lookups f (xs ++ ys) = lookups f xs ++ lookups g ys := by
  induction xs generalizing f with
  | nil =>
    obtain rfl : f = g := Except.ok.inj h
    cases f <;> rfl
  | cons x xs ih =>
    cases f with
    | object o => exact congrArg (List.cons (o, x)) (ih h)
    | scalar v =>
      rw [lookups_scalar, lookups_scalar]
      by_cases hv : v = .null
      · rw [hv, foldlM_hop_null] at h
        rw [← Except.ok.inj h, lookups_scalar]
        rfl
      · rw [foldlM_hop_scalar hv] at h
        cases h

lemma lookups_append_of_scalar {v : Value} (h : xs.foldlM hop f = .ok (.scalar v))
    (ys : List String) : lookups f (xs ++ ys) = lookups f xs := by
  rw [lookups_append_of_ok h, lookups_scalar, List.append_nil]

/-- When a name is to blame, the rest is not looked up. -/
lemma lookups_append_of_error {name : String} (h : xs.foldlM hop f = .error name)
    (ys : List String) : lookups f (xs ++ ys) = lookups f xs := by
  induction xs generalizing f with
  | nil => cases h
  | cons x xs ih =>
    cases f with
    | object o => exact congrArg (List.cons (o, x)) (ih h)
    | scalar v => exact (lookups_scalar v _).trans (lookups_scalar v _).symm

end Append

/-- Fields that are read in another way give the same if those that are looked up are the same. -/
lemma follow_eq_of_lookups (read : α → String → Option (Field α)) (path : Path) (f : Field α)
    (names : List String)
    (h : ∀ look ∈ lookups f names, read look.1 look.2 = field? look.1 look.2) :
    @follow α ⟨read⟩ path f names = follow path f names := by
  induction names generalizing f with
  | nil => cases f <;> rfl
  | cons name rest ih =>
    cases f with
    | scalar v => cases v <;> rfl
    | object o =>
      have hfield : read o name = field? o name := h (o, name) (List.mem_cons_self ..)
      have hrest : ∀ look ∈ lookups ((field? o name).getD (.scalar .null)) rest,
          read look.1 look.2 = field? look.1 look.2 :=
        fun look hlook => h look (List.mem_cons_of_mem _ hlook)
      calc @follow α ⟨read⟩ path (.object o) (name :: rest)
          = @followField α ⟨read⟩ path (read o name) rest :=
            @followField_object α ⟨read⟩ path o name rest
        _ = followField path (field? o name) rest := by
            rw [hfield]
            cases hnext : field? o name with
            | none => rfl
            | some next =>
              rw [hnext] at hrest
              exact ih next hrest
        _ = follow path (.object o) (name :: rest) := (followField_object path o name rest).symm

lemma resolve_eq_of_lookups (read : α → String → Option (Field α)) (root : Option α) (path : Path)
    (h : ∀ look ∈ lookups (Field.ofRoot root) path.segments,
      read look.1 look.2 = field? look.1 look.2) :
    @resolve α ⟨read⟩ root path = resolve root path := by
  cases root with
  | none => rfl
  | some o => exact follow_eq_of_lookups read path (.object o) path.segments h

/-! ## Longer paths -/

/-- **Resolution of a longer path.**  If a path resolves to null, so does every path that goes on
from it.  If it resolves to another scalar, the next name is to blame, and if some name is to
blame already, it stays so.  If it ends on an object, a path that goes on from it resolves as the
rest does from that object, apart from the path in the error.

So a path is resolved hop by hop: what its first part leads to is all that the rest goes on from.
After null, after a scalar and after an error nothing more is looked up, and what the other
fields hold makes no difference. -/
theorem resolve_append (root : Option α) (scope : Scope) (xs : List String) (y : String)
    (ys : List String) :
    let whole : Path := ⟨scope, xs ++ y :: ys⟩
    let before := resolve root ⟨scope, xs⟩
    let after := resolve root whole
    let looked := lookups (Field.ofRoot root)
    (before = .ok .null → after = .ok .null ∧ looked whole.segments = looked xs) ∧
    (∀ v, before = .ok v → v ≠ .null →
      after = .error (.scalarTraversal whole y) ∧ looked whole.segments = looked xs) ∧
    (∀ path name, before = .error (.scalarTraversal path name) →
      after = .error (.scalarTraversal whole name) ∧ looked whole.segments = looked xs) ∧
    (∀ path, before = .error (.objectValue path) →
      ∃ o, reached root xs = .ok (.object o) ∧
        after = (resolve (some o) ⟨scope, y :: ys⟩).mapError (fun error => error.inPath whole) ∧
        looked whole.segments = looked xs ++ lookups (.object o) (y :: ys)) ∧
    after = outcome whole ((reached root xs).bind fun f => (y :: ys).foldlM hop f) ∧
    (∀ read : α → String → Option (Field α),
      (∀ look ∈ looked whole.segments, read look.1 look.2 = field? look.1 look.2) →
        @resolve α ⟨read⟩ root whole = after) := by
  intro whole before after looked
  have hafter : after = outcome whole ((reached root xs).bind fun f => (y :: ys).foldlM hop f) := by
    rw [← reached_append]
    exact resolve_eq_outcome root whole
  have hbefore : before = outcome ⟨scope, xs⟩ (reached root xs) := resolve_eq_outcome root _
  refine ⟨fun h => ?_, fun v h hv => ?_, fun path name h => ?_, fun path h => ?_, hafter, ?_⟩
  · have hreached := outcome_eq_ok_iff.1 (hbefore.symm.trans h)
    rw [hreached] at hafter
    exact ⟨hafter.trans (outcome_eq_ok_iff.2 (foldlM_hop_null (y :: ys))),
      lookups_append_of_scalar hreached _⟩
  · have hreached := outcome_eq_ok_iff.1 (hbefore.symm.trans h)
    rw [hreached] at hafter
    exact ⟨hafter.trans (outcome_eq_scalarTraversal_iff.2 ⟨rfl, foldlM_hop_scalar hv y ys⟩),
      lookups_append_of_scalar hreached _⟩
  · obtain ⟨-, hreached⟩ := outcome_eq_scalarTraversal_iff.1 (hbefore.symm.trans h)
    rw [hreached] at hafter
    exact ⟨hafter, lookups_append_of_error hreached _⟩
  · obtain ⟨-, o, hreached⟩ := outcome_eq_objectValue_iff.1 (hbefore.symm.trans h)
    rw [hreached] at hafter
    refine ⟨o, hreached, ?_, lookups_append_of_ok hreached _⟩
    rw [hafter, resolve_eq_outcome]
    exact outcome_eq_mapError whole _ _
  · exact fun read hread => resolve_eq_of_lookups read root whole hread

/-- In the document `{"a": {"b": null, "c": "x"}}` the path `#.a` ends on an object, `#.a.b` on
null and `#.a.c` on a scalar from which `n` leads nowhere. -/
theorem resolve_append_document :
    let inner : List (String × Json) := [("b", .null), ("c", .string "x")]
    let root : Option Json := some (.object [("a", .object inner)])
    (resolve root ⟨.subject, ["a"]⟩ = .error (.objectValue ⟨.subject, ["a"]⟩) ∧
      ∃ o, reached root ["a"] = .ok (.object o) ∧
        resolve root ⟨.subject, ["a", "c"]⟩
          = (resolve (some o) ⟨.subject, ["c"]⟩).mapError (·.inPath ⟨.subject, ["a", "c"]⟩)) ∧
    (resolve root ⟨.subject, ["a", "b"]⟩ = .ok .null ∧
      resolve root ⟨.subject, ["a", "b", "n"]⟩ = .ok .null) ∧
    (resolve root ⟨.subject, ["a", "c"]⟩ = .ok (.string "x") ∧
      resolve root ⟨.subject, ["a", "c", "n", "m"]⟩
        = .error (.scalarTraversal ⟨.subject, ["a", "c", "n", "m"]⟩ "n")) ∧
    (resolve root ⟨.subject, ["a", "c", "n"]⟩
        = .error (.scalarTraversal ⟨.subject, ["a", "c", "n"]⟩ "n") ∧
      resolve root ⟨.subject, ["a", "c", "n", "m"]⟩
        = .error (.scalarTraversal ⟨.subject, ["a", "c", "n", "m"]⟩ "n")) := by
  intro inner root
  have hobject : resolve root ⟨.subject, ["a"]⟩ = .error (.objectValue ⟨.subject, ["a"]⟩) := rfl
  have hnull : resolve root ⟨.subject, ["a", "b"]⟩ = .ok .null := rfl
  have hscalar : resolve root ⟨.subject, ["a", "c"]⟩ = .ok (.string "x") := rfl
  have hstuck : resolve root ⟨.subject, ["a", "c", "n"]⟩
      = .error (.scalarTraversal ⟨.subject, ["a", "c", "n"]⟩ "n") := rfl
  obtain ⟨o, ho, hrest, -⟩ := (resolve_append root .subject ["a"] "c" []).2.2.2.1 _ hobject
  refine ⟨⟨hobject, o, ho, hrest⟩, ⟨hnull, ?_⟩, ⟨hscalar, ?_⟩, ⟨hstuck, ?_⟩⟩
  · exact ((resolve_append root .subject ["a", "b"] "n" []).1 hnull).1
  · exact ((resolve_append root .subject ["a", "c"] "n" ["m"]).2.1 _ hscalar (by simp)).1
  · exact ((resolve_append root .subject ["a", "c", "n"] "m" []).2.2.1 _ _ hstuck).1

end GuardedMachine
