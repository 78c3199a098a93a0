/-
# Opening slots

A slot that holds a label in a state may be opened.  The state then describes more: it overlaps
whatever it has overlapped before, whichever of its slots are opened and whichever are opened in
the other state.  So a machine lists at least the same transitions for it, in the same order.

At the other end are the states without open slots.  Such a state describes nothing but itself,
and what overlap means for other states is determined by that: they overlap if and only if they
describe one of these in common.
-/
import Mathlib.Data.List.Basic
import GuardedMachine.Machine.Dispatch
import GuardedMachine.Proofs.State.Overlap

namespace GuardedMachine

namespace Composite

variable {L : Type} {n : Nat}

/-- The state with some of its slots opened. -/
def opened (which : Fin n → Bool) (s : Composite L n) : Composite L n :=
  ⟨Vector.ofFn fun i => if which i then none else s.slots[i]⟩

@[simp] lemma getElem_opened (which : Fin n → Bool) (s : Composite L n) (i : Nat) (h : i < n) :
    (s.opened which).slots[i] = if which ⟨i, h⟩ then none else s.slots[i] := by
  simp [opened]

lemma opened_none (s : Composite L n) : s.opened (fun _ => false) = s := by
  obtain ⟨slots⟩ := s
  simp [opened]

variable [DecidableEq L]

/-! ## Slots -/

/-- Slots that agree still do so when one of them, or both, are opened. -/
lemma slotsAgree_opened {a b : Option L} (h : slotsAgree a b = true) (p q : Bool) :
    slotsAgree (if p then none else a) (if q then none else b) = true := by
  cases p with
  | true => rfl
  | false =>
    cases q with
    | true => cases a <;> rfl
    | false => exact h

/-- Slots that hold labels agree if and only if they are the same. -/
lemma slotsAgree_iff_eq {a b : Option L} (ha : a.isSome = true) (hb : b.isSome = true) :
    slotsAgree a b = true ↔ a = b := by
  obtain ⟨k, rfl⟩ := Option.isSome_iff_exists.1 ha
  obtain ⟨l, rfl⟩ := Option.isSome_iff_exists.1 hb
  rw [Option.some.injEq]
  exact decide_eq_true_iff

/-! ## States -/

variable {a b : Composite L n}

/-- Opening slots, of either state or of both, keeps an overlap. -/
lemma overlaps_opened (h : overlaps a b = true) (p q : Fin n → Bool) :
    overlaps (a.opened p) (b.opened q) = true := by
  rw [overlaps_iff] at h ⊢
  intro i hi
  rw [getElem_opened, getElem_opened]
  exact slotsAgree_opened (h i hi) _ _

/-- A concrete state overlaps only one concrete state: itself. -/
lemma overlaps_iff_eq_of_isConcrete (ha : isConcrete a = true) (hb : isConcrete b = true) :
    overlaps a b = true ↔ a = b := by
  rw [isConcrete_iff] at ha hb
  rw [overlaps_iff]
  constructor
  · intro h
    obtain ⟨slots⟩ := a
    obtain ⟨slots'⟩ := b
    congr 1
    refine Vector.ext fun i hi => ?_
    exact (slotsAgree_iff_eq (ha i hi) (hb i hi)).1 (h i hi)
  · rintro rfl i hi
    exact (slotsAgree_iff_eq (ha i hi) (ha i hi)).2 rfl

end Composite

namespace Machine

variable {T L E C X : Type} {n : Nat} [DecidableEq L]

/-- What starts from a state starts also from the state with some slots opened. -/
lemma transitionsFrom_sublist_opened (m : Machine T (Composite L n) E C X) (s : Composite L n)
    (which : Fin n → Bool) :
    (m.transitionsFrom s).Sublist (m.transitionsFrom (s.opened which)) := by
  refine List.monotone_filter_right m.transitions fun t ht => ?_
  have hopened := Composite.overlaps_opened ht (fun _ => false) which
  rwa [Composite.opened_none] at hopened

end Machine

namespace Composite

variable {L : Type} {n : Nat} [DecidableEq L]

/-- **The meaning of overlap.**  Two states overlap if and only if there is a state without open
slots that overlaps both.  Hence opening slots on either side keeps an overlap, and every table
has for a state with slots opened at least the transitions for the state itself, in the same
order.  States without open slots overlap if and only if they are equal. -/
theorem overlaps_means_common_concrete [Nonempty L] (a b : Composite L n) :
    (overlaps a b = true ↔
      ∃ c : Composite L n, isConcrete c = true ∧ overlaps a c = true ∧ overlaps b c = true) ∧
    (overlaps a b = true →
      ∀ p q : Fin n → Bool, overlaps (a.opened p) (b.opened q) = true) ∧
    (∀ (T E C X : Type) (m : Machine T (Composite L n) E C X) (p : Fin n → Bool),
      (m.transitionsFrom a).Sublist (m.transitionsFrom (a.opened p))) ∧
    (isConcrete a = true → isConcrete b = true → (overlaps a b = true ↔ a = b)) := by
  refine ⟨⟨exists_concrete_of_overlaps, ?_⟩, overlaps_opened, ?_, overlaps_iff_eq_of_isConcrete⟩
  · rintro ⟨c, hc, ha, hb⟩
    exact overlaps_of_concrete hc ha hb
  · intro T E C X m p
    exact m.transitionsFrom_sublist_opened a p

/-- The states `(true, *, *)` and `(*, false, *)` overlap, and so they do with the label of the
first one taken out. -/
theorem overlaps_means_common_concrete_triple :
    let a : Composite Bool 3 := triple (some true) none none
    let b : Composite Bool 3 := triple none (some false) none
    Nonempty Bool ∧ overlaps a b = true ∧
      (∃ c : Composite Bool 3, isConcrete c = true ∧ overlaps a c = true ∧ overlaps b c = true) ∧
      overlaps (a.opened fun i => i == 0) (b.opened fun _ => false) = true := by
  intro a b
  have hab : overlaps a b = true := by cbv
  obtain ⟨hcommon, hopened, -, -⟩ := overlaps_means_common_concrete a b
  exact ⟨⟨true⟩, hab, hcommon.1 hab, hopened hab _ _⟩

end Composite

end GuardedMachine
