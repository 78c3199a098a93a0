/-
# Drafts

Transitions and machines are described step by step.  A draft of a transition has a slot for
each part, and setting a slot again replaces what it held; guard text that does not compile
is kept as its error until the draft is built or the slot is set again.  A draft of a machine
collects transitions and listeners in order.

Building a draft gives everything that is wrong with it, in a fixed order, or the finished
transition or machine.
-/
import GuardedMachine.Machine.BuildError
import GuardedMachine.Machine.Dispatch

namespace GuardedMachine

variable {T S E C X : Type}

/-! ## Transitions -/

/-- A draft of a transition. -/
structure TransitionDraft (T S E C : Type) where
  /-- The source, if it is set. -/
  source? : Option S
  /-- The event, if it is set. -/
  event? : Option E
  /-- The target, if it is set. -/
  target? : Option S
  /-- The guard or the error of its text, if one is set. -/
  guard? : Option (Except CompileError (Guard T S E C))

/-- One step of the description of a transition. -/
inductive Clause (T S E C : Type)
  | source (s : S)
  | event (e : E)
  | target (s : S)
  | guard (g : Guard T S E C)
  | predicate (name : String) (test : T → S → E → Option C → Bool)
  | text (text : String)

namespace TransitionDraft

/-- The draft with nothing set. -/
def empty : TransitionDraft T S E C := ⟨none, none, none, none⟩

/-- The draft with one slot set. -/
def add (d : TransitionDraft T S E C) : Clause T S E C → TransitionDraft T S E C
  | .source s => { d with source? := some s }
  | .event e => { d with event? := some e }
  | .target s => { d with target? := some s }
  | .guard g => { d with guard? := some (.ok g) }
  | .predicate name test => { d with guard? := some (.ok (.predicate name test)) }
  | .text text => { d with guard? := some (Guard.ofText text) }

/-- The draft of a sequence of clauses. -/
def ofClauses (clauses : List (Clause T S E C)) : TransitionDraft T S E C :=
  clauses.foldl add empty

/-- The error of the guard text, if it does not compile. -/
def guardError? (d : TransitionDraft T S E C) : Option CompileError :=
  match d.guard? with
  | some (.error e) => some e
  | _ => none

/-- Everything wrong with a draft. -/
def faults (d : TransitionDraft T S E C) : List BuildError :=
  (if d.source?.isNone then [.missingFromState] else [])
    ++ (if d.event?.isNone then [.missingEvent] else [])
    ++ (if d.target?.isNone then [.missingToState] else [])
    ++ (d.guardError?.map .invalidGuard).toList

/-- The transition of a draft, or everything wrong with it. -/
def build (d : TransitionDraft T S E C) : Except BuildErrors (Transition T S E C) :=
  match d.source?, d.event?, d.target?, d.guard? with
  | some source, some event, some target, none => .ok ⟨source, event, target, none⟩
  | some source, some event, some target, some (.ok g) => .ok ⟨source, event, target, some g⟩
  | _, _, _, _ => .error ⟨d.faults⟩

end TransitionDraft

/-! ## Machines -/

/-- A draft of a machine. -/
structure MachineDraft (T S E C X : Type) where
  /-- Access to the state of subjects, if it is set. -/
  accessor? : Option (Accessor T S)
  /-- The error for events that are not resolved, if it is set. -/
  unresolved? : Option (T → S → E → X)
  /-- The transitions, in order. -/
  transitions : List (Transition T S E C)
  /-- The listeners, in order. -/
  listeners : List (Listener T S E C)

/-- One step of the description of a machine. -/
inductive Registration (T S E C X : Type)
  | accessor (a : Accessor T S)
  | unresolved (report : T → S → E → X)
  | transition (t : Transition T S E C)
  /-- Several transitions at once. -/
  | transitions (ts : List (Transition T S E C))
  /-- A transition whose guard is still text. -/
  | textTransition (source : S) (event : E) (target : S) (text : String)
  /-- A transition that is still a draft. -/
  | draft (d : TransitionDraft T S E C)
  | listener (l : Listener T S E C)

/-- Why a step is rejected. -/
inductive Rejection (S : Type)
  /-- Guard text does not compile. -/
  | guard (e : BuildError)
  /-- A draft of a transition cannot be built. -/
  | transition (es : BuildErrors)
  /-- A listener describes no state. -/
  | listener (r : ListenerRejection S)

namespace MachineDraft

/-- The draft with nothing in it. -/
def empty : MachineDraft T S E C X := ⟨none, none, [], []⟩

/-- The draft with one more transition. -/
def addTransition (d : MachineDraft T S E C X) (t : Transition T S E C) :
    MachineDraft T S E C X :=
  { d with transitions := d.transitions ++ [t] }

/-- The draft after one more step. -/
def register [Descriptor S] (d : MachineDraft T S E C X) :
    Registration T S E C X → Except (Rejection S) (MachineDraft T S E C X)
  | .accessor a => .ok { d with accessor? := some a }
  | .unresolved report => .ok { d with unresolved? := some report }
  | .transition t => .ok (d.addTransition t)
  | .transitions ts => .ok { d with transitions := d.transitions ++ ts }
  | .textTransition source event target text =>
    match Transition.whenText source event target text with
    | .ok t => .ok (d.addTransition t)
    | .error e => .error (.guard (.invalidGuard e))
  | .draft draft =>
    match draft.build with
    | .ok t => .ok (d.addTransition t)
    | .error es => .error (.transition es)
  | .listener l =>
    match l.rejection? with
    | none => .ok { d with listeners := d.listeners ++ [l] }
    | some r => .error (.listener r)

/-- The draft of a sequence of steps, up to the first that is rejected. -/
def ofRegistrations [Descriptor S] (rs : List (Registration T S E C X)) :
    Except (Rejection S) (MachineDraft T S E C X) :=
  rs.foldlM register empty

/-- Everything missing from a draft. -/
def faults (d : MachineDraft T S E C X) : List BuildError :=
  (if d.accessor?.isNone then [.missingStateAccessor] else [])
    ++ (if d.unresolved?.isNone then [.missingErrorFactory] else [])
    ++ (if d.transitions.isEmpty then [.noTransitions] else [])

/-- The machine of a draft, or everything missing from it. -/
def build (d : MachineDraft T S E C X) : Except BuildErrors (Machine T S E C X) :=
  match d.accessor?, d.unresolved?, d.transitions with
  | some accessor, some unresolved, _ :: _ =>
    .ok ⟨d.transitions, d.listeners, accessor, unresolved⟩
  | _, _, _ => .error ⟨d.faults⟩

end MachineDraft

end GuardedMachine
