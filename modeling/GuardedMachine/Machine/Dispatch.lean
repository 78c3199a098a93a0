/-
# Dispatching events

A machine has a table of transitions, listeners, access to the state of its subjects, and a
way to report an event that it cannot resolve.  Dispatching an event from a state passes
through these phases:

1. machine listeners before the transition, state listeners on leaving the state, and event
   listeners before the transition;
2. resolution: every transition is asked whether it can be taken, and exactly one must say yes;
3. the target of that transition is written to the subject;
4. transform listeners, event listeners after the transition, state listeners on entering the
   target, actions, and machine listeners after the transition.

Listeners of one phase are called in the order of their registration, each on the subject that
the previous one left.  If resolution fails, the subject keeps its state and phases 3 and 4 do
not take place.  If a listener panics, nothing else takes place.

A dispatch records its calls: which callback was called, what it was told, and the subject it
was given.
-/
import GuardedMachine.Machine.Listener
import GuardedMachine.Machine.Transition

namespace GuardedMachine

/-- How a machine reads and writes the state of a subject. -/
structure Accessor (T S : Type) where
  /-- The state of a subject. -/
  get : T → S
  /-- The subject with another state. -/
  set : T → S → T

/-- The error types into which evaluation errors can be put. -/
class OfEvalError (X : Type) where
  /-- The error of a guard that failed. -/
  ofEvalError : EvalError → X

instance : OfEvalError EvalError := ⟨fun err => err⟩

/-- What a dispatch calls. -/
inductive Callee (T S E C X : Type)
  /-- A listener, by its name, at a moment. -/
  | listener (name : String) (moment : Moment S E C)
  /-- A guard, with the paths that it resolved. -/
  | guard (g : Guard T S E C) (source : S) (event : E) (context : Option C)
    (resolved : List Path)
  /-- The write access to the subject's state. -/
  | write (target : S)
  /-- The report of an event that was not resolved, and what it gave. -/
  | unresolved (source : S) (event : E) (error : X)

/-- A call made by a dispatch. -/
structure Call (T S E C X : Type) where
  /-- The subject that was given. -/
  subject : T
  /-- What was called, and what it was told. -/
  callee : Callee T S E C X

/-- How a dispatch ended. -/
inductive Outcome (S X : Type)
  /-- The subject moved to a state. -/
  | moved (target : S)
  /-- There was no transition to take, or a guard failed. -/
  | failed (error : X)
  /-- A listener panicked. -/
  | panicked (message : String)
deriving DecidableEq, Repr

/-- What a dispatch has done. -/
structure Dispatch (T S E C X : Type) where
  /-- The subject afterwards. -/
  subject : T
  /-- The calls made, in order. -/
  calls : List (Call T S E C X)
  /-- How it ended. -/
  outcome : Outcome S X

/-- A machine for subjects `T` with states `S`, events `E`, contexts `C` and errors `X`. -/
structure Machine (T S E C X : Type) where
  /-- The transitions, in the order of their registration. -/
  transitions : List (Transition T S E C)
  /-- The listeners, in the order of their registration. -/
  listeners : List (Listener T S E C)
  /-- Access to the state of subjects. -/
  accessor : Accessor T S
  /-- The error for an event that is not resolved. -/
  unresolved : T → S → E → X

/-! ## Calling listeners -/

/-- A listener to be called: its name, the moment, and what it does. -/
structure Pending (T S E C : Type) where
  /-- The name of the listener. -/
  name : String
  /-- The moment at which it is called. -/
  moment : Moment S E C
  /-- What it does to the subject. -/
  run : T → Effect T

/-- What a sequence of listeners has done. -/
structure Progress (T S E C X : Type) where
  /-- The subject afterwards. -/
  subject : T
  /-- The calls made, in order. -/
  calls : List (Call T S E C X)
  /-- The message of the last one called, if it panicked. -/
  panic : Option String

variable {T S E C X : Type}

/-- Call listeners one after the other, up to the first that panics. -/
def Pending.runAll : List (Pending T S E C) → T → Progress T S E C X
  | [], subject => ⟨subject, [], none⟩
  | p :: rest, subject =>
    let call : Call T S E C X := ⟨subject, .listener p.name p.moment⟩
    match p.run subject with
    | .finished subject' =>
      let after := runAll rest subject'
      ⟨after.subject, call :: after.calls, after.panic⟩
    | .panicked subject' message => ⟨subject', [call], some message⟩

namespace Machine

variable [Descriptor S]

/-- The transitions that start from a state, for any event. -/
def transitionsFrom (m : Machine T S E C X) (state : S) : List (Transition T S E C) :=
  m.transitions.filter fun t => overlaps t.source state

variable [DecidableEq E]

/-- The listeners to be called at a moment. -/
def due (m : Machine T S E C X) (moment : Moment S E C) : List (Pending T S E C) :=
  m.listeners.filterMap fun l => (l.response? moment).map fun run => ⟨l.name, moment, run⟩

/-- The moments before resolution. -/
def momentsBefore (source : S) (event : E) (context : Option C) : List (Moment S E C) :=
  [.machine .pre source event, .state .exit source event, .event .pre event source none context]

/-- The moments after a target has been written. -/
def momentsAfter (source : S) (event : E) (target : S) (context : Option C) :
    List (Moment S E C) :=
  [.transform source target event, .event .post event source (some target) context,
    .state .enter target event, .action source event target context,
    .machine .post target event]

variable [HasFields T] [HasFields C]

/-! ## Resolution -/

/-- The candidates for an event in a state. -/
def candidates (m : Machine T S E C X) (source : S) (event : E) : List (Transition T S E C) :=
  m.transitions.filter fun t => t.appliesTo source event

/-- Ask the transitions of a table in order whether they can be taken: the targets of those that
can, or the first error, and the calls made.  The guard of a transition that does not apply is not
called. -/
def weigh (subject : T) (source : S) (event : E) (context : Option C) :
    List (Transition T S E C) → Except EvalError (List S) × List (Call T S E C X)
  | [] => (.ok [], [])
  | t :: rest =>
    let answer := t.canFire subject source event context
    let asked := if t.appliesTo source event then t.guard else none
    let calls := asked.toList.map fun g =>
      ⟨subject, .guard g source event context answer.resolved⟩
    match answer.result with
    | .error e => (.error e, calls)
    | .ok fires =>
      let (targets, more) := weigh subject source event context rest
      (targets.map fun ts => if fires then t.target :: ts else ts, calls ++ more)

/-- The target of the only transition that can be taken, or the error, and the calls made. -/
def resolve [OfEvalError X] (m : Machine T S E C X) (subject : T) (source : S) (event : E)
    (context : Option C) : Except X S × List (Call T S E C X) :=
  let (targets, calls) := weigh subject source event context m.transitions
  match targets with
  | .error e => (.error (OfEvalError.ofEvalError e), calls)
  | .ok [target] => (.ok target, calls)
  | .ok _ =>
    let error := m.unresolved subject source event
    (.error error, calls ++ [⟨subject, .unresolved source event error⟩])

/-! ## Dispatch -/

/-- Dispatch an event from the given state, whatever state the subject is in. -/
def dispatchFrom [OfEvalError X] (m : Machine T S E C X) (subject : T) (source : S) (event : E)
    (context : Option C) : Dispatch T S E C X :=
  let before := Pending.runAll ((momentsBefore source event context).flatMap m.due) subject
  match before.panic with
  | some message => ⟨before.subject, before.calls, .panicked message⟩
  | none =>
    let (answer, weighed) := m.resolve before.subject source event context
    match answer with
    | .error error => ⟨before.subject, before.calls ++ weighed, .failed error⟩
    | .ok target =>
      let after := Pending.runAll ((momentsAfter source event target context).flatMap m.due)
        (m.accessor.set before.subject target)
      ⟨after.subject,
        before.calls ++ weighed ++ ⟨before.subject, .write target⟩ :: after.calls,
        match after.panic with
        | some message => .panicked message
        | none => .moved target⟩

/-- Dispatch an event from the state that the subject is in. -/
def dispatch [OfEvalError X] (m : Machine T S E C X) (subject : T) (event : E)
    (context : Option C) : Dispatch T S E C X :=
  m.dispatchFrom subject (m.accessor.get subject) event context

end Machine

end GuardedMachine
