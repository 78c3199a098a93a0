/-
# What listeners are bound to

A machine keeps its listeners of all kinds in one list, and at a moment it calls those that are
bound to the moment.  The binding of a listener leaves out what the listener looks at besides,
that is the states that it describes.

A listener is called only at moments of its own binding, so what is called at a moment depends
only on the listeners with one binding and on their order among themselves
(`due_eq_of_bindings`).  The moments of one dispatch have different bindings (`nodup_bindings`),
so no listener is called twice in it.
-/
import Mathlib.Data.List.Basic
import GuardedMachine.Proofs.Dispatch.Phases

namespace GuardedMachine

variable {T S E C X : Type}

/-- The kinds of moments to which listeners are bound. -/
inductive Binding (E : Type)
  | machine (timing : Timing)
  | state (side : Side)
  | event (event : E) (timing : Timing)
  | transform
  | action
deriving DecidableEq, Repr

/-- What a reaction is bound to. -/
def Reaction.binding : Reaction T S E C → Binding E
  | .machine timing _ => .machine timing
  | .state _ side _ => .state side
  | .event e timing _ => .event e timing
  | .transform _ _ _ => .transform
  | .action _ => .action

/-- The kind of a moment. -/
def Moment.binding : Moment S E C → Binding E
  | .machine timing _ _ => .machine timing
  | .state side _ _ => .state side
  | .event timing e _ _ _ => .event e timing
  | .transform _ _ _ => .transform
  | .action _ _ _ _ => .action

variable [Descriptor S] [DecidableEq E]

/-- A listener is called only at moments of its binding. -/
lemma Listener.binding_eq_of_response? {l : Listener T S E C} {moment : Moment S E C}
    {run : T → Effect T} (h : l.response? moment = some run) :
    l.reaction.binding = moment.binding := by
  obtain ⟨name, reaction⟩ := l
  cases reaction <;> cases moment <;>
    simp only [response?, reduceCtorEq, Option.ite_none_right_eq_some] at h
  case machine.machine => rw [Reaction.binding, Moment.binding, h.1]
  case state.state => rw [Reaction.binding, Moment.binding, h.1.1]
  case event.event => rw [Reaction.binding, Moment.binding, h.1.1, h.1.2]
  case transform.transform => rfl
  case action.action => rfl

lemma Listener.response?_eq_none {l : Listener T S E C} {moment : Moment S E C}
    (h : l.reaction.binding ≠ moment.binding) : l.response? moment = none := by
  rcases hresponse : l.response? moment with _ | run
  · rfl
  · exact absurd (binding_eq_of_response? hresponse) h

namespace Machine

omit [Descriptor S] [DecidableEq E] in
/-- The moments of a dispatch have different bindings. -/
lemma nodup_bindings (source : S) (event : E) (target : S) (context : Option C) :
    ((momentsBefore source event context
      ++ momentsAfter source event target context).map Moment.binding).Nodup := by
  simp [momentsBefore, momentsAfter, Moment.binding]

/-- Of the listeners of a machine, a moment concerns those with its binding. -/
lemma due_eq_filterMap_filter (m : Machine T S E C X) (moment : Moment S E C) :
    m.due moment = (m.listeners.filter fun l => l.reaction.binding = moment.binding).filterMap
      fun l => (l.response? moment).map fun run => ⟨l.name, moment, run⟩ := by
  rw [due, List.filterMap_filter]
  refine List.filterMap_congr fun l _ => ?_
  by_cases h : l.reaction.binding = moment.binding
  · rw [if_pos (decide_eq_true h)]
  · rw [if_neg (by simpa using h), Listener.response?_eq_none h]
    rfl

/-- Machines with the same listeners for every binding call the same ones at every moment. -/
lemma due_eq_of_bindings {m m' : Machine T S E C X}
    (h : ∀ binding, m'.listeners.filter (fun l => l.reaction.binding = binding)
      = m.listeners.filter fun l => l.reaction.binding = binding) (moment : Moment S E C) :
    m'.due moment = m.due moment := by
  rw [due_eq_filterMap_filter, due_eq_filterMap_filter, h]

end Machine

end GuardedMachine
