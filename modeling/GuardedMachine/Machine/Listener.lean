/-
# Listeners

A dispatch passes through moments at which listeners are called.  A moment carries what the
listeners called then are told.  A listener is bound to one kind of moment: a machine listener
to every dispatch, a state listener to leaving or entering the states it describes, an event
listener to one event, a transform listener to the changes between the states it describes,
and an action to every change of state.

A listener works on the subject and leaves it changed.  It may also panic, which ends the
dispatch; what it has done to the subject until then stays.
-/
import GuardedMachine.State.Descriptor
import GuardedMachine.Text.Described

namespace GuardedMachine

/-- Before or after the transition is resolved. -/
inductive Timing
  | pre
  | post
deriving DecidableEq, Repr

/-- Leaving or entering a state. -/
inductive Side
  | exit
  | enter
deriving DecidableEq, Repr

/-- What a callback has done to the subject. -/
inductive Effect (T : Type)
  /-- It has returned, leaving this subject. -/
  | finished (subject : T)
  /-- It has panicked, leaving this subject. -/
  | panicked (subject : T) (message : String)

/-- The subject that a callback leaves. -/
def Effect.subject {T : Type} : Effect T → T
  | .finished subject => subject
  | .panicked subject _ => subject

/-- A moment of a dispatch at which listeners are called. -/
inductive Moment (S E C : Type)
  /-- The start of a dispatch in a state, or its end in one. -/
  | machine (timing : Timing) (state : S) (event : E)
  /-- A state is left or entered. -/
  | state (side : Side) (state : S) (event : E)
  /-- An event has not yet been resolved, or it has and led to a target. -/
  | event (timing : Timing) (event : E) (source : S) (target : Option S) (context : Option C)
  /-- A state has been changed into another one. -/
  | transform (source target : S) (event : E)
  /-- A transition has been taken. -/
  | action (source : S) (event : E) (target : S) (context : Option C)
deriving DecidableEq

/-- What a listener is bound to, and what it does to the subject then. -/
inductive Reaction (T S E C : Type)
  | machine (timing : Timing) (run : S → E → T → Effect T)
  | state (descriptor : S) (side : Side) (run : E → T → Effect T)
  | event (event : E) (timing : Timing) (run : S → Option S → Option C → T → Effect T)
  | transform (source target : S) (run : E → T → Effect T)
  | action (run : S → E → S → Option C → T → Effect T)

/-- A listener and the name it is reported under. -/
structure Listener (T S E C : Type) where
  /-- The name. -/
  name : String
  /-- What it is bound to and does. -/
  reaction : Reaction T S E C

/-- Why a listener cannot be registered: a descriptor of it leaves everything open. -/
inductive ListenerRejection (S : Type)
  | stateWithoutLabel (descriptor : S)
  | sourceWithoutLabel (descriptor : S)
  | targetWithoutLabel (descriptor : S)
deriving DecidableEq

/-- The message of a rejection. -/
def ListenerRejection.message {S : Type} [Described S] : ListenerRejection S → String
  | .stateWithoutLabel d =>
    "state listener descriptor " ++ describe d ++ " has no concrete component"
  | .sourceWithoutLabel d =>
    "transform listener source " ++ describe d ++ " has no concrete component"
  | .targetWithoutLabel d =>
    "transform listener target " ++ describe d ++ " has no concrete component"

namespace Listener

variable {T S E C : Type} [Descriptor S]

/-- What a listener does at a moment, if it is called then. -/
def response? [DecidableEq E] (l : Listener T S E C) (m : Moment S E C) :
    Option (T → Effect T) :=
  match l.reaction, m with
  | .machine timing run, .machine timing' state event =>
    if timing = timing' then some (run state event) else none
  | .state descriptor side run, .state side' state event =>
    if side = side' ∧ overlaps descriptor state then some (run event) else none
  | .event event timing run, .event timing' event' source target context =>
    if timing = timing' ∧ event = event' then some (run source target context) else none
  | .transform source target run, .transform source' target' event =>
    if overlaps source source' ∧ overlaps target target' then some (run event) else none
  | .action run, .action source event target context =>
    some (run source event target context)
  | _, _ => none

/-- The reason to reject a listener, if there is one. -/
def rejection? (l : Listener T S E C) : Option (ListenerRejection S) :=
  match l.reaction with
  | .state descriptor _ _ =>
    if hasLabel descriptor then none else some (.stateWithoutLabel descriptor)
  | .transform source target _ =>
    if !hasLabel source then some (.sourceWithoutLabel source)
    else if !hasLabel target then some (.targetWithoutLabel target)
    else none
  | _ => none

end Listener

end GuardedMachine
