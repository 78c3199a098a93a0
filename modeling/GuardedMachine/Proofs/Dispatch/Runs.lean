/-
# Runs

A run dispatches one event after the other on the same subject, each from the state that the
subject is in by then.  Two things are followed along it: what is written to the subject, and
what the dispatches answer.  Every dispatch that moves the subject writes its answer once, and
no other dispatch writes anything (`dispatchFrom_moves_or_fails`); so along a run the writes are
the answers, one for one.

The subject itself may be changed by listeners.  As long as they leave its state alone, and
reading gives back what was written (`KeepsState`), its state is the last answer, and the moves
of the run follow the table of transitions.
-/
import GuardedMachine.Proofs.Dispatch.Protocol

namespace GuardedMachine

variable {T S E C X : Type}

/-! ## Writes and answers -/

/-- The state that a call writes, if it is a write. -/
def Callee.written? : Callee T S E C X → Option S
  | .write target => some target
  | _ => none

namespace Dispatch

/-- The states written in a dispatch, in order. -/
def writes (d : Dispatch T S E C X) : List S :=
  d.calls.filterMap fun call => call.callee.written?

/-- The state that a dispatch has moved its subject to, if it has. -/
def result? (d : Dispatch T S E C X) : Option S :=
  match d.outcome with
  | .moved target => some target
  | .failed _ => none
  | .panicked _ => none

end Dispatch

/-- What steps call decides what is collected from their calls. -/
lemma Step.filterMap_calls {α : Type} (f : Callee T S E C X → Option α)
    (steps : List (Step T S E C X)) (subject : T) :
    (calls steps subject).filterMap (fun call => f call.callee)
      = steps.filterMap fun step => f step.callee := by
  have h := congrArg (List.filterMap f) (map_callee_calls steps subject)
  rw [List.filterMap_map, List.filterMap_map] at h
  exact h

/-- Steps that keep a part of the subject keep it together. -/
lemma Step.get_leave {get : T → S} {steps : List (Step T S E C X)}
    (h : ∀ step ∈ steps, ∀ t, get (step.effect t) = get t) (subject : T) :
    get (leave steps subject) = get subject := by
  induction steps generalizing subject with
  | nil => rfl
  | cons step rest ih =>
    have hrest : ∀ s ∈ rest, ∀ t, get (s.effect t) = get t := fun s hs => h s (by simp [hs])
    rw [leave_cons, ih hrest, h step (by simp)]

/-! ## Machines that own the state of their subjects -/

/-- A reaction that leaves a part of the subject alone. -/
def Reaction.Keeps (get : T → S) : Reaction T S E C → Prop
  | .machine _ run => ∀ state event t, get (run state event t).subject = get t
  | .state _ _ run => ∀ event t, get (run event t).subject = get t
  | .event _ _ run => ∀ source target context t, get (run source target context t).subject = get t
  | .transform _ _ run => ∀ event t, get (run event t).subject = get t
  | .action run =>
    ∀ source event target context t, get (run source event target context t).subject = get t

lemma Reaction.Keeps.response [Descriptor S] [DecidableEq E] {get : T → S}
    {l : Listener T S E C} (h : l.reaction.Keeps get) {moment : Moment S E C}
    {run : T → Effect T} (hrun : l.response? moment = some run) (t : T) :
    get (run t).subject = get t := by
  obtain ⟨name, reaction⟩ := l
  cases reaction <;> cases moment <;>
    simp only [Listener.response?, reduceCtorEq, Option.ite_none_right_eq_some,
      Option.some.injEq] at hrun
  case machine.machine =>
    obtain ⟨-, rfl⟩ := hrun
    exact h _ _ t
  case state.state =>
    obtain ⟨-, rfl⟩ := hrun
    exact h _ t
  case event.event =>
    obtain ⟨-, rfl⟩ := hrun
    exact h _ _ _ t
  case transform.transform =>
    obtain ⟨-, rfl⟩ := hrun
    exact h _ t
  case action.action =>
    subst hrun
    exact h _ _ _ _ t

/-- Nothing but a write changes the state of a subject, and a write changes it to what is
written. -/
structure Machine.KeepsState (m : Machine T S E C X) : Prop where
  get_set : ∀ t s, m.accessor.get (m.accessor.set t s) = s
  keeps : ∀ l ∈ m.listeners, l.reaction.Keeps m.accessor.get

/-- Neither the bell nor the creak opens or shuts the door. -/
lemma Door.machine_keepsState : Door.machine.KeepsState where
  get_set door state := rfl
  keeps := by
    intro l hl
    simp only [Door.machine, List.mem_cons, List.not_mem_nil, or_false] at hl
    rcases hl with rfl | rfl
    · exact fun _ _ _ => rfl
    · exact fun _ _ => rfl

namespace Machine

section State

variable [Descriptor S] [DecidableEq E]

lemma KeepsState.get_of_mem_phaseAt {m : Machine T S E C X} (hm : m.KeepsState)
    {moment : Moment S E C} {step : Step T S E C X} (h : step ∈ m.phaseAt moment) (t : T) :
    m.accessor.get (step.effect t) = m.accessor.get t := by
  rw [← map_toStep_due] at h
  obtain ⟨p, hp, rfl⟩ := List.mem_map.1 h
  obtain ⟨l, hl, hrun⟩ := List.mem_filterMap.1 hp
  obtain ⟨run, hresponse, rfl⟩ := Option.map_eq_some_iff.1 hrun
  exact (hm.keeps l hl).response hresponse t

/-- The phases before resolution keep the state. -/
lemma KeepsState.get_ready {m : Machine T S E C X} (hm : m.KeepsState) (subject : T) (source : S)
    (event : E) (context : Option C) :
    m.accessor.get (m.ready subject source event context) = m.accessor.get subject := by
  refine Step.get_leave (fun step hstep t => ?_) subject
  rw [← flatMap_momentsBefore] at hstep
  obtain ⟨moment, -, h⟩ := List.mem_flatMap.1 hstep
  exact hm.get_of_mem_phaseAt h t

/-- What is written stays until the end of the dispatch. -/
lemma KeepsState.get_leave_stepsAfter {m : Machine T S E C X} (hm : m.KeepsState) (subject : T)
    (source : S) (event : E) (target : S) (context : Option C) :
    m.accessor.get (Step.leave (m.stepsAfter source event target context) subject) = target := by
  have hlisteners : ∀ step ∈ (momentsAfter source event target context).flatMap m.phaseAt, ∀ t,
      m.accessor.get (step.effect t) = m.accessor.get t := by
    intro step hstep t
    obtain ⟨moment, -, h⟩ := List.mem_flatMap.1 hstep
    exact hm.get_of_mem_phaseAt h t
  rw [flatMap_momentsAfter, Step.leave_cons, Step.get_leave hlisteners]
  exact hm.get_set subject target

lemma filterMap_written_stepsBefore (m : Machine T S E C X) (source : S) (event : E)
    (context : Option C) :
    (m.stepsBefore source event context).filterMap (fun step => step.callee.written?) = [] := by
  rw [List.filterMap_eq_nil_iff]
  intro step hstep
  obtain ⟨name, moment, heq⟩ := exists_listener_of_mem_stepsBefore hstep
  rw [heq]
  rfl

lemma filterMap_written_stepsAfter (m : Machine T S E C X) (source : S) (event : E) (target : S)
    (context : Option C) :
    (m.stepsAfter source event target context).filterMap (fun step => step.callee.written?)
      = [target] := by
  have hlisteners : ((momentsAfter source event target context).flatMap m.phaseAt).filterMap
      (fun step => step.callee.written?) = [] := by
    rw [List.filterMap_eq_nil_iff]
    intro step hstep
    obtain ⟨moment, -, h⟩ := List.mem_flatMap.1 hstep
    obtain ⟨name, moment, heq⟩ := exists_listener_of_mem_phaseAt h
    rw [heq]
    rfl
  rw [flatMap_momentsAfter, List.filterMap_cons, hlisteners]
  rfl

end State

/-! ## One dispatch -/

variable [Descriptor S] [DecidableEq E] [HasFields T] [HasFields C]

lemma filterMap_written_guardSteps (m : Machine T S E C X) (subject : T) (source : S) (event : E)
    (context : Option C) :
    (m.guardSteps subject source event context).filterMap (fun step => step.callee.written?)
      = [] := by
  rw [List.filterMap_eq_nil_iff]
  intro step hstep
  obtain ⟨t, -, ht⟩ := List.mem_filterMap.1 hstep
  obtain ⟨g, -, rfl⟩ := Option.map_eq_some_iff.1 ht
  rfl

/-- A target is that of a registered transition for the event from the state. -/
lemma exists_transition_of_resolution {m : Machine T S E C X} {subject : T} {source : S}
    {event : E} {context : Option C} {target : S}
    (h : m.resolution subject source event context = .target target) :
    ∃ t ∈ m.transitions, t.event = event ∧ overlaps t.source source = true ∧
      t.target = target := by
  simp only [resolution] at h
  split at h
  · cases h
  · split at h
    · rename_i t ht
      cases h
      have hmem : t ∈ m.transitions.filter fun t => t.event = event ∧ overlaps t.source source :=
        (List.mem_filter.1 (ht ▸ List.mem_singleton_self t)).1
      obtain ⟨hmem, hevent⟩ := List.mem_filter.1 hmem
      obtain ⟨hevent, hsource⟩ := of_decide_eq_true hevent
      exact ⟨t, hmem, hevent, hsource, rfl⟩
    · cases h

variable [OfEvalError X]

/-- A dispatch either moves the subject along a registered transition, and writes its target
once, or it fails and writes nothing. -/
lemma dispatchFrom_moves_or_fails {m : Machine T S E C X} (hm : m.Returns) (subject : T)
    (source : S) (event : E) (context : Option C) :
    let d := m.dispatchFrom subject source event context
    let ready := m.ready subject source event context
    (∃ t ∈ m.transitions, t.event = event ∧ overlaps t.source source = true ∧
      d.outcome = .moved t.target ∧ d.writes = [t.target] ∧
      d.subject = Step.leave (m.stepsAfter source event t.target context) ready) ∨
    (∃ error, d.outcome = .failed error ∧ d.writes = [] ∧ d.subject = ready) := by
  intro d ready
  have hresolve := m.resolve_eq ready source event context
  have hbefore := m.filterMap_written_stepsBefore source event context
  have hguards := m.filterMap_written_guardSteps ready source event context
  cases hresolution : m.resolution ready source event context with
  | target target =>
    rw [hresolution] at hresolve
    obtain ⟨t, ht, hevent, hsource, rfl⟩ := exists_transition_of_resolution hresolution
    have hd : d = _ := dispatchFrom_of_ok hm hresolve
    have hafter := m.filterMap_written_stepsAfter source event t.target context
    refine Or.inl ⟨t, ht, hevent, hsource, by rw [hd], ?_, by rw [hd]⟩
    simp only [hd, Dispatch.writes, List.filterMap_append, Step.filterMap_calls, hbefore, hguards,
      hafter, List.nil_append]
  | guardFails e =>
    rw [hresolution] at hresolve
    have hd : d = _ := dispatchFrom_of_error hm hresolve
    refine Or.inr ⟨OfEvalError.ofEvalError e, by rw [hd], ?_, by rw [hd]⟩
    simp only [hd, Dispatch.writes, List.filterMap_append, Step.filterMap_calls, hbefore, hguards,
      List.nil_append]
  | unresolved =>
    rw [hresolution] at hresolve
    have hd : d = _ := dispatchFrom_of_error hm hresolve
    refine Or.inr ⟨m.unresolved ready source event, by rw [hd], ?_, by rw [hd]⟩
    simp only [hd, Dispatch.writes, List.filterMap_append, Step.filterMap_calls, hbefore, hguards,
      List.nil_append]
    rfl

/-- The state after a dispatch is its answer, or the state before. -/
lemma KeepsState.get_dispatchFrom {m : Machine T S E C X} (hm : m.Returns) (hs : m.KeepsState)
    (subject : T) (source : S) (event : E) (context : Option C) :
    let d := m.dispatchFrom subject source event context
    m.accessor.get d.subject = d.result?.getD (m.accessor.get subject) := by
  intro d
  rcases dispatchFrom_moves_or_fails hm subject source event context with
    ⟨t, -, -, -, houtcome, -, hsubject⟩ | ⟨error, houtcome, -, hsubject⟩
  · have hresult : d.result? = some t.target := by rw [Dispatch.result?, houtcome]
    rw [hsubject, hs.get_leave_stepsAfter, hresult]
    rfl
  · have hresult : d.result? = none := by rw [Dispatch.result?, houtcome]
    rw [hsubject, hs.get_ready, hresult]
    rfl

/-! ## Runs -/

/-- The dispatches of events with their contexts, one after the other on one subject. -/
def run (m : Machine T S E C X) : T → List (E × Option C) → List (Dispatch T S E C X)
  | _, [] => []
  | subject, (event, context) :: rest =>
    let d := m.dispatch subject event context
    d :: run m d.subject rest

/-- The subject that a run leaves. -/
def after (m : Machine T S E C X) : T → List (E × Option C) → T
  | subject, [] => subject
  | subject, (event, context) :: rest => after m (m.dispatch subject event context).subject rest

/-- A run goes on from the subject that its first part leaves. -/
lemma run_append (m : Machine T S E C X) (subject : T) (inputs inputs' : List (E × Option C)) :
    m.run subject (inputs ++ inputs')
      = m.run subject inputs ++ m.run (m.after subject inputs) inputs' := by
  induction inputs generalizing subject with
  | nil => rfl
  | cons input rest ih =>
    obtain ⟨event, context⟩ := input
    simp only [List.cons_append, run, after, ih]

/-- The writes of a run are its answers. -/
lemma flatMap_writes_run {m : Machine T S E C X} (hm : m.Returns) (subject : T)
    (inputs : List (E × Option C)) :
    (m.run subject inputs).flatMap Dispatch.writes
      = (m.run subject inputs).filterMap Dispatch.result? := by
  induction inputs generalizing subject with
  | nil => rfl
  | cons input rest ih =>
    obtain ⟨event, context⟩ := input
    rw [run, List.flatMap_cons, List.filterMap_cons, ih]
    rcases dispatchFrom_moves_or_fails hm subject (m.accessor.get subject) event context with
      ⟨t, -, -, -, houtcome, hwrites, -⟩ | ⟨error, houtcome, hwrites, -⟩
    · simp only [dispatch, Dispatch.result?, houtcome, hwrites, List.singleton_append]
    · simp only [dispatch, Dispatch.result?, houtcome, hwrites, List.nil_append]

lemma exists_dispatch_of_mem_run {m : Machine T S E C X} {subject : T}
    {inputs : List (E × Option C)} {d : Dispatch T S E C X} (h : d ∈ m.run subject inputs) :
    ∃ t event context, d = m.dispatch t event context := by
  induction inputs generalizing subject with
  | nil => cases h
  | cons input rest ih =>
    obtain ⟨event, context⟩ := input
    rcases List.mem_cons.1 h with rfl | h
    · exact ⟨subject, event, context, rfl⟩
    · exact ih h

/-- The state after a run is the last answer, or the state before the run. -/
lemma KeepsState.get_after {m : Machine T S E C X} (hm : m.Returns) (hs : m.KeepsState)
    (subject : T) (inputs : List (E × Option C)) :
    m.accessor.get (m.after subject inputs)
      = ((m.run subject inputs).filterMap Dispatch.result?).getLast?.getD
          (m.accessor.get subject) := by
  induction inputs generalizing subject with
  | nil => rfl
  | cons input rest ih =>
    obtain ⟨event, context⟩ := input
    have hstep := hs.get_dispatchFrom hm subject (m.accessor.get subject) event context
    rw [after, run, ih, List.filterMap_cons, dispatch, hstep]
    rcases (m.dispatchFrom subject (m.accessor.get subject) event context).result? with
      _ | target
    · rfl
    · -- the answer of this dispatch stands, unless a later one replaces it
      rw [List.getLast?_cons, Option.getD_some, Option.getD_some]

/-- **Writes over whole runs.**  Along every run the states written are the answers of its
dispatches, one for one and in order: a dispatch that moves the subject writes its answer once,
and one that fails writes nothing.  If only writes change the state of the subject, its state
after every run is the last answer, or the initial state if there is none; and each move of the
run goes from the state before it to the state after it along a registered transition for its
event. -/
theorem run_writes_results {m : Machine T S E C X} (hm : m.Returns) (subject : T)
    (inputs : List (E × Option C)) :
    let dispatches := m.run subject inputs
    dispatches.flatMap Dispatch.writes = dispatches.filterMap Dispatch.result? ∧
    (∀ d ∈ dispatches, (∃ target, d.outcome = .moved target ∧ d.writes = [target]) ∨
      (∃ error, d.outcome = .failed error ∧ d.writes = [])) ∧
    (m.KeepsState →
      m.accessor.get (m.after subject inputs)
        = (dispatches.filterMap Dispatch.result?).getLast?.getD (m.accessor.get subject) ∧
      ∀ earlier event context later, inputs = earlier ++ (event, context) :: later →
        let before := m.after subject earlier
        let d := m.dispatch before event context
        dispatches = m.run subject earlier ++ d :: m.run d.subject later ∧
        ∀ target, d.outcome = .moved target →
          m.accessor.get d.subject = target ∧
          ∃ t ∈ m.transitions, t.event = event ∧
            overlaps t.source (m.accessor.get before) = true ∧ t.target = target) := by
  intro dispatches
  refine ⟨flatMap_writes_run hm subject inputs, ?_, fun hs => ⟨hs.get_after hm subject inputs, ?_⟩⟩
  · intro d hd
    obtain ⟨t, event, context, rfl⟩ := exists_dispatch_of_mem_run hd
    rcases dispatchFrom_moves_or_fails hm t (m.accessor.get t) event context with
      ⟨t, -, -, -, houtcome, hwrites, -⟩ | ⟨error, houtcome, hwrites, -⟩
    · exact Or.inl ⟨t.target, houtcome, hwrites⟩
    · exact Or.inr ⟨error, houtcome, hwrites⟩
  · intro earlier event context later hinputs before d
    refine ⟨?_, fun target htarget => ?_⟩
    · have hrun := m.run_append subject earlier ((event, context) :: later)
      rw [← hinputs] at hrun
      exact hrun
    · have hstate : m.accessor.get d.subject = d.result?.getD (m.accessor.get before) :=
        hs.get_dispatchFrom hm before (m.accessor.get before) event context
      rcases dispatchFrom_moves_or_fails hm before (m.accessor.get before) event context with
        ⟨t, ht, hevent, hsource, houtcome, -, -⟩ | ⟨error, houtcome, -, -⟩
      · obtain rfl : t.target = target := Outcome.moved.inj (houtcome.symm.trans htarget)
        refine ⟨?_, t, ht, hevent, hsource, rfl⟩
        have hresult : d.result? = some t.target := by rw [Dispatch.result?, htarget]
        rw [hresult] at hstate
        exact hstate
      · cases houtcome.symm.trans htarget

/-- A shut door is pushed twice and then pulled: it opens, the second push is not resolved, and
the pull ends with a guard that is no boolean. -/
theorem run_writes_results_door :
    Door.machine.Returns ∧ Door.machine.KeepsState ∧
      (Door.machine.run ⟨Door.shut, false⟩ [(true, none), (true, none), (false, none)]).flatMap
        Dispatch.writes = [Door.opened] ∧
      Door.machine.accessor.get
        (Door.machine.after ⟨Door.shut, false⟩ [(true, none), (true, none), (false, none)])
          = Door.opened := by
  obtain ⟨hwrites, -, hstate⟩ := run_writes_results Door.machine_returns ⟨Door.shut, false⟩
    [(true, none), (true, none), (false, none)]
  refine ⟨Door.machine_returns, Door.machine_keepsState, ?_, ?_⟩
  · rw [hwrites]
    cbv
  · rw [(hstate Door.machine_keepsState).1]
    cbv

end Machine

end GuardedMachine
