/-
# The phases of a dispatch

A dispatch calls its listeners in phases.  This file says what the phases are without the
machinery that runs them: a phase selects the listeners of one kind that are bound to the
moment, in the order of their registration, and each selected one becomes a step, that is a
call to be made together with what it leaves of the subject.  Steps are taken one after the
other, each on the subject that the previous one left.

The main result is `runAll_due`: as long as no listener panics, running the listeners that are
due at some moments is taking the steps of the corresponding phases.
-/
import Mathlib.Tactic.Lemma
import GuardedMachine.Machine.Dispatch
import GuardedMachine.State.Composite

namespace GuardedMachine

variable {T S E C X : Type}

/-! ## Steps -/

/-- A call to be made, and the subject that it leaves. -/
structure Step (T S E C X : Type) where
  /-- What is called, and what it is told. -/
  callee : Callee T S E C X
  /-- What the call makes of the subject that it is given. -/
  effect : T → T

namespace Step

/-- The subject after some steps. -/
def leave (steps : List (Step T S E C X)) (subject : T) : T :=
  steps.foldl (fun t step => step.effect t) subject

/-- The calls made by some steps: each is given the subject that the previous one left. -/
def calls : List (Step T S E C X) → T → List (Call T S E C X)
  | [], _ => []
  | step :: rest, subject => ⟨subject, step.callee⟩ :: calls rest (step.effect subject)

@[simp] lemma leave_cons (step : Step T S E C X) (rest : List (Step T S E C X)) (subject : T) :
    leave (step :: rest) subject = leave rest (step.effect subject) := rfl

@[simp] lemma calls_nil (subject : T) : calls ([] : List (Step T S E C X)) subject = [] := rfl

@[simp] lemma calls_cons (step : Step T S E C X) (rest : List (Step T S E C X)) (subject : T) :
    calls (step :: rest) subject
      = ⟨subject, step.callee⟩ :: calls rest (step.effect subject) := rfl

@[simp] lemma leave_append (steps steps' : List (Step T S E C X)) (subject : T) :
    leave (steps ++ steps') subject = leave steps' (leave steps subject) := by
  simp [leave]

@[simp] lemma calls_append (steps steps' : List (Step T S E C X)) (subject : T) :
    calls (steps ++ steps') subject
      = calls steps subject ++ calls steps' (leave steps subject) := by
  induction steps generalizing subject with
  | nil => rfl
  | cons step rest ih => simp [ih]

/-- The callees of the calls are the callees of the steps, one for one. -/
lemma map_callee_calls (steps : List (Step T S E C X)) (subject : T) :
    (calls steps subject).map Call.callee = steps.map Step.callee := by
  induction steps generalizing subject with
  | nil => rfl
  | cons step rest ih => simp [ih]

/-- A call is made for every step. -/
lemma length_calls (steps : List (Step T S E C X)) (subject : T) :
    (calls steps subject).length = steps.length := by
  have h := congrArg List.length (map_callee_calls steps subject)
  rw [List.length_map, List.length_map] at h
  exact h

/-- No call of a kind is made by steps none of which is of that kind. -/
lemma filter_calls_eq_nil {steps : List (Step T S E C X)} {kind : Callee T S E C X → Bool}
    (h : ∀ step ∈ steps, kind step.callee = false) (subject : T) :
    (calls steps subject).filter (fun call => kind call.callee) = [] := by
  rw [List.filter_eq_nil_iff]
  intro call hcall
  have hmem : call.callee ∈ steps.map Step.callee := by
    rw [← map_callee_calls steps subject]
    exact List.mem_map_of_mem hcall
  obtain ⟨step, hstep, heq⟩ := List.mem_map.1 hmem
  rw [← heq, h step hstep]
  simp

/-- Steps that leave the subject alone are all given the same one. -/
lemma calls_of_effect_id {steps : List (Step T S E C X)} (h : ∀ step ∈ steps, step.effect = id)
    (subject : T) : calls steps subject = steps.map fun step => ⟨subject, step.callee⟩ := by
  induction steps with
  | nil => rfl
  | cons step rest ih =>
    have hstep : step.effect subject = subject := by rw [h step (by simp)]; rfl
    simp [hstep, ih fun s hs => h s (by simp [hs])]

lemma leave_of_effect_id {steps : List (Step T S E C X)} (h : ∀ step ∈ steps, step.effect = id)
    (subject : T) : leave steps subject = subject := by
  induction steps with
  | nil => rfl
  | cons step rest ih =>
    have hstep : step.effect subject = subject := by rw [h step (by simp)]; rfl
    simp [hstep, ih fun s hs => h s (by simp [hs])]

end Step

/-! ## Listeners that return -/

/-- A reaction that never panics. -/
def Reaction.Returns : Reaction T S E C → Prop
  | .machine _ run => ∀ state event t, ∃ t', run state event t = .finished t'
  | .state _ _ run => ∀ event t, ∃ t', run event t = .finished t'
  | .event _ _ run => ∀ source target context t, ∃ t', run source target context t = .finished t'
  | .transform _ _ run => ∀ event t, ∃ t', run event t = .finished t'
  | .action run =>
    ∀ source event target context t, ∃ t', run source event target context t = .finished t'

/-- A machine none of whose listeners ever panics. -/
def Machine.Returns (m : Machine T S E C X) : Prop := ∀ l ∈ m.listeners, l.reaction.Returns

lemma Reaction.Returns.response [Descriptor S] [DecidableEq E] {l : Listener T S E C}
    (h : l.reaction.Returns) {moment : Moment S E C} {run : T → Effect T}
    (hrun : l.response? moment = some run) (t : T) : ∃ t', run t = .finished t' := by
  obtain ⟨name, reaction⟩ := l
  cases reaction <;> cases moment <;>
    simp only [Listener.response?, reduceCtorEq, Option.ite_none_right_eq_some,
      Option.some.injEq] at hrun
  case machine.machine =>
    obtain ⟨-, rfl⟩ := hrun
    exact h _ _ t
  case state.state =>
    obtain ⟨-, rfl⟩ := hrun
    exact h _ t
  case event.event =>
    obtain ⟨-, rfl⟩ := hrun
    exact h _ _ _ t
  case transform.transform =>
    obtain ⟨-, rfl⟩ := hrun
    exact h _ t
  case action.action =>
    subst hrun
    exact h _ _ _ _ t

/-! ## Listeners to be called as steps -/

/-- The step of a listener that is to be called. -/
def Pending.toStep (p : Pending T S E C) : Step T S E C X :=
  ⟨.listener p.name p.moment, fun t => (p.run t).subject⟩

/-- Running listeners none of which panics is taking their steps. -/
lemma Pending.runAll_of_returns {ps : List (Pending T S E C)}
    (h : ∀ p ∈ ps, ∀ t, ∃ t', p.run t = .finished t') (subject : T) :
    (runAll ps subject : Progress T S E C X)
      = ⟨Step.leave (ps.map (toStep (X := X))) subject, Step.calls (ps.map toStep) subject,
          none⟩ := by
  induction ps generalizing subject with
  | nil => rfl
  | cons p rest ih =>
    obtain ⟨subject', hrun⟩ := h p (by simp) subject
    have hrest := ih (fun q hq => h q (by simp [hq])) subject'
    simp [runAll, hrun, hrest, toStep, Effect.subject]

namespace Machine

/-! ## The phases

Each phase names the kind of listener that it is for and the condition under which one is
selected; what the selected listeners are told is the moment. -/

section Phases

variable [Descriptor S] [DecidableEq E]

/-- The steps of the listeners that a selection picks, in the order of their registration. -/
def phase (m : Machine T S E C X) (moment : Moment S E C)
    (select : Reaction T S E C → Option (T → Effect T)) : List (Step T S E C X) :=
  m.listeners.filterMap fun l =>
    (select l.reaction).map fun run => ⟨.listener l.name moment, fun t => (run t).subject⟩

/-- The machine listeners with the given timing. -/
def machinePhase (m : Machine T S E C X) (timing : Timing) (state : S) (event : E) :
    List (Step T S E C X) :=
  m.phase (.machine timing state event) fun
    | .machine timing' run => if timing' = timing then some (run state event) else none
    | _ => none

/-- The state listeners for a side whose descriptor overlaps the state. -/
def statePhase (m : Machine T S E C X) (side : Side) (state : S) (event : E) :
    List (Step T S E C X) :=
  m.phase (.state side state event) fun
    | .state descriptor side' run =>
      if side' = side ∧ overlaps descriptor state then some (run event) else none
    | _ => none

/-- The listeners to the event with the given timing. -/
def eventPhase (m : Machine T S E C X) (timing : Timing) (event : E) (source : S)
    (target : Option S) (context : Option C) : List (Step T S E C X) :=
  m.phase (.event timing event source target context) fun
    | .event event' timing' run =>
      if timing' = timing ∧ event' = event then some (run source target context) else none
    | _ => none

/-- The transform listeners whose descriptors overlap the two states. -/
def transformPhase (m : Machine T S E C X) (source target : S) (event : E) :
    List (Step T S E C X) :=
  m.phase (.transform source target event) fun
    | .transform source' target' run =>
      if overlaps source' source ∧ overlaps target' target then some (run event) else none
    | _ => none

/-- The actions. -/
def actionPhase (m : Machine T S E C X) (source : S) (event : E) (target : S)
    (context : Option C) : List (Step T S E C X) :=
  m.phase (.action source event target context) fun
    | .action run => some (run source event target context)
    | _ => none

/-- The phases before resolution. -/
def stepsBefore (m : Machine T S E C X) (source : S) (event : E) (context : Option C) :
    List (Step T S E C X) :=
  m.machinePhase .pre source event
    ++ m.statePhase .exit source event
    ++ m.eventPhase .pre event source none context

/-- The subject that resolution is given. -/
def ready (m : Machine T S E C X) (subject : T) (source : S) (event : E) (context : Option C) :
    T :=
  Step.leave (m.stepsBefore source event context) subject

/-- The write of the target, and the phases after it. -/
def stepsAfter (m : Machine T S E C X) (source : S) (event : E) (target : S)
    (context : Option C) : List (Step T S E C X) :=
  ⟨.write target, fun t => m.accessor.set t target⟩ ::
    (m.transformPhase source target event
      ++ m.eventPhase .post event source (some target) context
      ++ m.statePhase .enter target event
      ++ m.actionPhase source event target context
      ++ m.machinePhase .post target event)

/-! ## The listeners that are due -/

/-- The phase of a moment. -/
def phaseAt (m : Machine T S E C X) : Moment S E C → List (Step T S E C X)
  | .machine timing state event => m.machinePhase timing state event
  | .state side state event => m.statePhase side state event
  | .event timing event source target context => m.eventPhase timing event source target context
  | .transform source target event => m.transformPhase source target event
  | .action source event target context => m.actionPhase source event target context

/-- The listeners due at a moment are the ones that its phase selects. -/
lemma map_toStep_due (m : Machine T S E C X) (moment : Moment S E C) :
    (m.due moment).map Pending.toStep = m.phaseAt moment := by
  have eq_phase {select : Reaction T S E C → Option (T → Effect T)}
      (h : ∀ l : Listener T S E C, l.response? moment = select l.reaction) :
      (m.due moment).map (Pending.toStep (X := X)) = m.phase moment select := by
    simp only [due, phase, List.map_filterMap, h, Option.map_map]
    rfl
  cases moment <;>
    · simp only [phaseAt, machinePhase, statePhase, eventPhase, transformPhase, actionPhase]
      refine eq_phase fun l => ?_
      obtain ⟨name, reaction⟩ := l
      cases reaction <;> rfl

/-- A phase calls listeners only. -/
lemma exists_listener_of_mem_phaseAt {m : Machine T S E C X} {moment : Moment S E C}
    {step : Step T S E C X} (h : step ∈ m.phaseAt moment) :
    ∃ name moment, step.callee = .listener name moment := by
  rw [← map_toStep_due] at h
  obtain ⟨p, -, rfl⟩ := List.mem_map.1 h
  exact ⟨p.name, p.moment, rfl⟩

lemma returns_of_mem_due {m : Machine T S E C X} (hm : m.Returns) {moment : Moment S E C}
    {p : Pending T S E C} (hp : p ∈ m.due moment) (t : T) : ∃ t', p.run t = .finished t' := by
  obtain ⟨l, hl, hrun⟩ := List.mem_filterMap.1 hp
  obtain ⟨run, hresponse, rfl⟩ := Option.map_eq_some_iff.1 hrun
  exact (hm l hl).response hresponse t

/-- Running the listeners due at some moments is taking the steps of their phases. -/
lemma runAll_due {m : Machine T S E C X} (hm : m.Returns) (moments : List (Moment S E C))
    (subject : T) :
    (Pending.runAll (moments.flatMap m.due) subject : Progress T S E C X)
      = ⟨Step.leave (moments.flatMap m.phaseAt) subject,
          Step.calls (moments.flatMap m.phaseAt) subject, none⟩ := by
  have returns : ∀ p ∈ moments.flatMap m.due, ∀ t, ∃ t', p.run t = .finished t' := by
    intro p hp t
    obtain ⟨moment, -, hp⟩ := List.mem_flatMap.1 hp
    exact returns_of_mem_due hm hp t
  rw [Pending.runAll_of_returns returns, List.map_flatMap]
  simp only [map_toStep_due]

lemma flatMap_momentsBefore (m : Machine T S E C X) (source : S) (event : E)
    (context : Option C) :
    (momentsBefore source event context).flatMap m.phaseAt
      = m.stepsBefore source event context := by
  simp [momentsBefore, phaseAt, stepsBefore]

lemma flatMap_momentsAfter (m : Machine T S E C X) (source : S) (event : E) (target : S)
    (context : Option C) :
    m.stepsAfter source event target context
      = ⟨.write target, fun t => m.accessor.set t target⟩ ::
        (momentsAfter source event target context).flatMap m.phaseAt := by
  simp [momentsAfter, phaseAt, stepsAfter]

/-- Before resolution nothing but listeners is called. -/
lemma exists_listener_of_mem_stepsBefore {m : Machine T S E C X} {source : S} {event : E}
    {context : Option C} {step : Step T S E C X}
    (h : step ∈ m.stepsBefore source event context) :
    ∃ name moment, step.callee = .listener name moment := by
  rw [← flatMap_momentsBefore] at h
  obtain ⟨moment, -, h⟩ := List.mem_flatMap.1 h
  exact exists_listener_of_mem_phaseAt h

/-- From the write on, nothing but listeners is called. -/
lemma eq_write_or_listener_of_mem_stepsAfter {m : Machine T S E C X} {source : S} {event : E}
    {target : S} {context : Option C} {step : Step T S E C X}
    (h : step ∈ m.stepsAfter source event target context) :
    step.callee = .write target ∨ ∃ name moment, step.callee = .listener name moment := by
  rw [flatMap_momentsAfter] at h
  rcases List.mem_cons.1 h with rfl | h
  · exact Or.inl rfl
  · obtain ⟨moment, -, h⟩ := List.mem_flatMap.1 h
    exact Or.inr (exists_listener_of_mem_phaseAt h)

/-! ## The dispatch around its resolution -/

variable [HasFields T] [HasFields C] [OfEvalError X]

/-- A dispatch whose resolution fails ends with it. -/
lemma dispatchFrom_of_error {m : Machine T S E C X} (hm : m.Returns) {subject : T} {source : S}
    {event : E} {context : Option C} {error : X} {weighed : List (Call T S E C X)}
    (h : m.resolve (m.ready subject source event context) source event context
      = (.error error, weighed)) :
    m.dispatchFrom subject source event context
      = ⟨m.ready subject source event context,
          Step.calls (m.stepsBefore source event context) subject ++ weighed,
          .failed error⟩ := by
  rw [ready] at h ⊢
  simp only [dispatchFrom, runAll_due hm, flatMap_momentsBefore, h]

/-- A dispatch whose resolution gives a target goes on with the write and what follows it. -/
lemma dispatchFrom_of_ok {m : Machine T S E C X} (hm : m.Returns) {subject : T} {source : S}
    {event : E} {context : Option C} {target : S} {weighed : List (Call T S E C X)}
    (h : m.resolve (m.ready subject source event context) source event context
      = (.ok target, weighed)) :
    m.dispatchFrom subject source event context
      = ⟨Step.leave (m.stepsAfter source event target context)
            (m.ready subject source event context),
          Step.calls (m.stepsBefore source event context) subject ++ weighed
            ++ Step.calls (m.stepsAfter source event target context)
              (m.ready subject source event context),
          .moved target⟩ := by
  rw [ready] at h ⊢
  simp only [dispatchFrom, runAll_due hm, flatMap_momentsBefore, flatMap_momentsAfter, h,
    Step.leave_cons, Step.calls_cons]

end Phases

end Machine

/-! ## A door

A small machine on which the results about dispatches can be watched. -/

/-- A door that remembers whether its bell was rung. -/
structure Door where
  /-- Whether it is open. -/
  state : Composite Bool 1
  /-- Whether the bell was rung. -/
  rung : Bool

instance : HasFields Door where
  field? door name := if name = "rung" then some (.scalar (.bool door.rung)) else none

namespace Door

/-- The door is shut. -/
def shut : Composite Bool 1 := .single false

/-- The door is open. -/
def opened : Composite Bool 1 := .single true

/-- Pushing (`true`) opens a shut door if the bell was rung; pulling (`false`) shuts a door in
any state, and an open one also by a transition whose guard is no boolean.  The bell rings at
the start of every dispatch. -/
def machine : Machine Door (Composite Bool 1) Bool Unit EvalError where
  transitions :=
    [⟨shut, true, opened, some (.text ⟨"#.rung;", .path ⟨.subject, ["rung"]⟩⟩)⟩,
      ⟨⟨#v[none]⟩, false, shut, none⟩,
      ⟨opened, false, shut, some (.text ⟨"#.owner;", .path ⟨.subject, ["owner"]⟩⟩)⟩]
  listeners :=
    [⟨"bell", .machine .pre fun _ _ door => .finished { door with rung := true }⟩,
      ⟨"creak", .state opened .enter fun _ door => .finished door⟩]
  accessor := ⟨Door.state, fun door state => { door with state := state }⟩
  unresolved := fun _ _ _ => .divisionByZero

lemma machine_returns : machine.Returns := by
  intro l hl
  simp only [machine, List.mem_cons, List.not_mem_nil, or_false] at hl
  rcases hl with rfl | rfl
  · exact fun _ _ door => ⟨{ door with rung := true }, rfl⟩
  · exact fun _ door => ⟨door, rfl⟩

end Door

end GuardedMachine
