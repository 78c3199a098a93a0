/-
# Transitions

A transition leads from the states that its source overlaps, on one event, to its target,
provided that its guard allows it.  Several transitions may share a source and an event.
-/
import GuardedMachine.Machine.Guard
import GuardedMachine.State.Descriptor
import GuardedMachine.Text.Described

namespace GuardedMachine

/-- A transition between states `S` on events `E`. -/
structure Transition (T S E C : Type) where
  /-- The descriptor of the states it starts from. -/
  source : S
  /-- The event that triggers it. -/
  event : E
  /-- The state it leads to. -/
  target : S
  /-- The guard, if there is one. -/
  guard : Option (Guard T S E C)

namespace Transition

variable {T S E C : Type}

/-- The transition without a guard. -/
def plain (source : S) (event : E) (target : S) : Transition T S E C :=
  ⟨source, event, target, none⟩

/-- The transition with a test as its guard. -/
def whenHolds (source : S) (event : E) (target : S) (name : String)
    (test : T → S → E → Option C → Bool) : Transition T S E C :=
  ⟨source, event, target, some (.predicate name test)⟩

/-- The transition with guard text. -/
def whenText (source : S) (event : E) (target : S) (text : String) :
    Except CompileError (Transition T S E C) :=
  (Guard.ofText text).map fun g => ⟨source, event, target, some g⟩

/-- Whether a transition is a candidate for an event in a state. -/
def appliesTo [Descriptor S] [DecidableEq E] (t : Transition T S E C) (current : S) (event : E) :
    Bool :=
  t.event = event && overlaps t.source current

variable [HasFields T] [HasFields C]

/-- The answer of the guard of a transition: yes if it has none. -/
def verdict (t : Transition T S E C) (subject : T) (current : S) (event : E)
    (context : Option C) : Evaluation Bool :=
  match t.guard with
  | some g => g.evaluate subject current event context
  | none => pure true

/-- Whether a transition can be taken: its guard is evaluated only if it is a candidate. -/
def canFire [Descriptor S] [DecidableEq E] (t : Transition T S E C) (subject : T) (current : S)
    (event : E) (context : Option C) : Evaluation Bool :=
  if t.appliesTo current event then t.verdict subject current event context else pure false

/-- The text that shows the guard of a transition. -/
def guardDescription (t : Transition T S E C) : String :=
  Text.describeOption (t.guard.map Guard.description)

instance [Described S] [Described E] : Described (Transition T S E C) where
  describe t :=
    "Transition \x7b from: " ++ describe t.source ++ ", event: " ++ describe t.event
      ++ ", to: " ++ describe t.target ++ ", guard: " ++ t.guardDescription ++ " \x7d"

end Transition

end GuardedMachine
