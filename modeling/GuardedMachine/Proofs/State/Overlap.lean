/-
# What it means to overlap

A composite state with open slots describes the concrete states that it overlaps.  Overlap is
symmetric but not transitive, since an open slot agrees with labels that do not agree with each
other; it is transitive through a state that has no open slot.

Hence two states overlap if and only if they describe a concrete state in common: the labels of
both fit together in one state, and any label will do where both are open.
-/
import Mathlib.Tactic.Lemma
import GuardedMachine.State.Composite

namespace GuardedMachine

namespace Composite

variable {L : Type} {n : Nat}

/-- The state with a label in every open slot. -/
def filled (l : L) (s : Composite L n) : Composite L n :=
  concrete (s.slots.map fun slot => slot.getD l)

@[simp] lemma getElem_filled (l : L) (s : Composite L n) (i : Nat) (h : i < n) :
    (s.filled l).slots[i] = some (s.slots[i].getD l) := by
  simp [filled, concrete]

@[simp] lemma getElem_orElse (s t : Composite L n) (i : Nat) (h : i < n) :
    (s.orElse t).slots[i] = s.slots[i].or t.slots[i] := by
  simp [orElse]

variable [DecidableEq L]

lemma isConcrete_filled (l : L) (s : Composite L n) : isConcrete (s.filled l) = true := by
  rw [isConcrete_iff]
  intro i hi
  rw [getElem_filled]
  rfl

/-! ## Slots -/

lemma slotsAgree_of_some {a b : Option L} {l : L} (ha : slotsAgree a (some l) = true)
    (hb : slotsAgree b (some l) = true) : slotsAgree a b = true := by
  cases a with
  | none => rfl
  | some k =>
    cases b with
    | none => rfl
    | some k' =>
      have hk : k = l := of_decide_eq_true ha
      have hk' : k' = l := of_decide_eq_true hb
      exact decide_eq_true (hk.trans hk'.symm)

lemma slotsAgree_left (a b : Option L) (l : L) :
    slotsAgree a (some ((a.or b).getD l)) = true := by
  cases a with
  | none => rfl
  | some k => exact decide_eq_true rfl

lemma slotsAgree_right {a b : Option L} (h : slotsAgree a b = true) (l : L) :
    slotsAgree b (some ((a.or b).getD l)) = true := by
  cases b with
  | none => rfl
  | some k =>
    cases a with
    | none => exact decide_eq_true rfl
    | some k' =>
      have hk : k' = k := of_decide_eq_true h
      exact decide_eq_true hk.symm

/-! ## States -/

variable {a b c : Composite L n}

/-- States that overlap one concrete state overlap each other. -/
lemma overlaps_of_concrete (hc : isConcrete c = true) (ha : overlaps a c = true)
    (hb : overlaps b c = true) : overlaps a b = true := by
  rw [overlaps_iff] at ha hb ⊢
  intro i hi
  obtain ⟨l, hl⟩ := Option.isSome_iff_exists.1 (isConcrete_iff.1 hc i hi)
  have hai := ha i hi
  have hbi := hb i hi
  rw [hl] at hai hbi
  exact slotsAgree_of_some hai hbi

/-- States that overlap each other overlap one concrete state. -/
lemma exists_concrete_of_overlaps [Nonempty L] (h : overlaps a b = true) :
    ∃ c : Composite L n, isConcrete c = true ∧ overlaps a c = true ∧ overlaps b c = true := by
  obtain ⟨l⟩ := ‹Nonempty L›
  rw [overlaps_iff] at h
  refine ⟨(a.orElse b).filled l, isConcrete_filled l _, ?_, ?_⟩
  · rw [overlaps_iff]
    intro i hi
    rw [getElem_filled, getElem_orElse]
    exact slotsAgree_left _ _ l
  · rw [overlaps_iff]
    intro i hi
    rw [getElem_filled, getElem_orElse]
    exact slotsAgree_right (h i hi) l

end Composite

end GuardedMachine
