/-
# Composite states

A composite state has a fixed number of slots.  Each holds a label or is left open, and an
open slot stands for every label.  Two states overlap when no slot holds different labels in
them.
-/
import GuardedMachine.State.Descriptor
import GuardedMachine.State.Label
import GuardedMachine.Text.Described

namespace GuardedMachine

/-- A state of `n` slots. -/
structure Composite (L : Type) (n : Nat) where
  /-- The labels of the slots; none in an open one. -/
  slots : Vector (Option L) n
deriving DecidableEq

namespace Composite

variable {L : Type} {n : Nat}

/-- The state with a label in every slot. -/
def concrete (labels : Vector L n) : Composite L n := ⟨labels.map some⟩

/-- The state of one slot with a label. -/
def single (l : L) : Composite L 1 := ⟨#v[some l]⟩

/-- A state of two slots. -/
def pair (first second : Option L) : Composite L 2 := ⟨#v[first, second]⟩

/-- A state of three slots. -/
def triple (first second third : Option L) : Composite L 3 := ⟨#v[first, second, third]⟩

/-- The label of a slot, if there is such a slot and it is not open. -/
def component? (s : Composite L n) (i : Nat) : Option L := s.slots[i]?.join

/-- The labels of `s`, with the labels of `t` where `s` is open. -/
def orElse (s t : Composite L n) : Composite L n :=
  ⟨s.slots.zipWith (fun a b => a.or b) t.slots⟩

/-! ## Overlap -/

/-- Whether two slots do not hold different labels. -/
def slotsAgree [DecidableEq L] : Option L → Option L → Bool
  | some a, some b => a = b
  | _, _ => true

instance [DecidableEq L] : Descriptor (Composite L n) where
  overlaps s t := (s.slots.zipWith slotsAgree t.slots).all fun agree => agree
  isConcrete s := s.slots.all Option.isSome
  hasLabel s := s.slots.any Option.isSome

variable [DecidableEq L]

/-- States overlap when they do so slot by slot. -/
theorem overlaps_iff {s t : Composite L n} :
    overlaps s t = true ↔ ∀ i (h : i < n), slotsAgree s.slots[i] t.slots[i] = true := by
  simp [overlaps, Vector.all_eq_true]

/-- A state is concrete when no slot is open. -/
theorem isConcrete_iff {s : Composite L n} :
    isConcrete s = true ↔ ∀ i (h : i < n), s.slots[i].isSome = true := by
  simp [isConcrete, Vector.all_eq_true]

omit [DecidableEq L]

/-! ## Text -/

/-- The text of a state: its labels in parentheses, with a star for an open slot. -/
def toText [Named L] (s : Composite L n) : String :=
  Text.enclosed "(" ")" (s.slots.toList.map fun slot => (slot.map name).getD "*")

instance [Named L] : Described (Composite L n) where
  describe s :=
    "CompositeState \x7b components: "
      ++ Text.enclosed "[" "]"
        (s.slots.toList.map fun slot => Text.describeOption (slot.map name))
      ++ " \x7d"

end Composite

end GuardedMachine
