/-
# Dispatches as attempts

A listener that panics ends the dispatch: its call is the last one, and what it has done to the
subject stays.  To follow dispatches with panics, this file lists the calls that a dispatch
attempts, each with what it does to the subject, a panic included.  Attempts are performed one
after the other, up to the first that panics.

As long as nothing panics, performing attempts is taking their steps (`perform_of_returns`);
otherwise it is taking the steps up to the panic (`perform_of_panic`), and there is no third way
(`exists_of_panic`).  The attempts of a dispatch are the steps of its protocol
(`map_toStep_attempts`), and every dispatch performs its attempts (`dispatchFrom_eq_perform`).
-/
import GuardedMachine.Proofs.Dispatch.Protocol

namespace GuardedMachine

variable {T S E C X : Type}

/-- A call to be made, and what it does, which may be a panic. -/
structure Attempt (T S E C X : Type) where
  /-- What is called, and what it is told. -/
  callee : Callee T S E C X
  /-- What the call does to the subject that it is given. -/
  act : T → Effect T

namespace Attempt

/-- The step of a call that returns in any case. -/
def ofStep (step : Step T S E C X) : Attempt T S E C X :=
  ⟨step.callee, fun t => .finished (step.effect t)⟩

/-- The call as a step: what it leaves of the subject, whether it returns or panics. -/
def toStep (a : Attempt T S E C X) : Step T S E C X :=
  ⟨a.callee, fun t => (a.act t).subject⟩

/-- Perform attempts one after the other, up to the first that panics. -/
def perform : List (Attempt T S E C X) → T → Progress T S E C X
  | [], subject => ⟨subject, [], none⟩
  | a :: rest, subject =>
    match a.act subject with
    | .finished subject' =>
      let after := perform rest subject'
      ⟨after.subject, ⟨subject, a.callee⟩ :: after.calls, after.panic⟩
    | .panicked subject' message => ⟨subject', [⟨subject, a.callee⟩], some message⟩

/-- The subject after some attempts, if none of them panics. -/
def leave (as : List (Attempt T S E C X)) (subject : T) : T :=
  Step.leave (as.map toStep) subject

/-- The calls of some attempts, if none of them panics. -/
def calls (as : List (Attempt T S E C X)) (subject : T) : List (Call T S E C X) :=
  Step.calls (as.map toStep) subject

/-- None of some attempts panics, each on the subject that the previous one leaves. -/
def Return (as : List (Attempt T S E C X)) (subject : T) : Prop :=
  (perform as subject).panic = none

@[simp] lemma toStep_ofStep (step : Step T S E C X) : (ofStep step).toStep = step := rfl

@[simp] lemma map_toStep_map_ofStep (steps : List (Step T S E C X)) :
    (steps.map ofStep).map toStep = steps := by
  rw [List.map_map]
  exact List.map_id steps

lemma calls_append (as bs : List (Attempt T S E C X)) (subject : T) :
    calls (as ++ bs) subject = calls as subject ++ calls bs (leave as subject) := by
  rw [calls, List.map_append, Step.calls_append]
  rfl

lemma length_calls (as : List (Attempt T S E C X)) (subject : T) :
    (calls as subject).length = as.length := by
  rw [calls, Step.length_calls, List.length_map]

/-! ## Performing attempts -/

/-- Attempts return if the first one returns and the others do so after it. -/
lemma return_cons_iff {a : Attempt T S E C X} {rest : List (Attempt T S E C X)} {subject : T} :
    Return (a :: rest) subject ↔ ∃ t, a.act subject = .finished t ∧ Return rest t := by
  rw [Return, perform]
  cases a.act subject <;> simp [Return]

/-- More attempts are performed on the subject that the first ones leave. -/
lemma perform_append {as : List (Attempt T S E C X)} {subject : T} (h : Return as subject)
    (bs : List (Attempt T S E C X)) :
    perform (as ++ bs) subject
      = ⟨(perform bs (leave as subject)).subject,
          calls as subject ++ (perform bs (leave as subject)).calls,
          (perform bs (leave as subject)).panic⟩ := by
  induction as generalizing subject with
  | nil => rfl
  | cons a rest ih =>
    obtain ⟨t, ha, hrest⟩ := return_cons_iff.1 h
    have ht : t = (a.act subject).subject := by rw [ha, Effect.subject]
    rw [List.cons_append, perform, ha]
    simp only [ih hrest]
    rw [ht]
    rfl

/-- As long as none panics, performing attempts is taking their steps. -/
lemma perform_of_returns {as : List (Attempt T S E C X)} {subject : T} (h : Return as subject) :
    perform as subject = ⟨leave as subject, calls as subject, none⟩ := by
  have happend := perform_append h []
  rw [List.append_nil] at happend
  rw [happend, perform, List.append_nil]

/-- A panic ends the performance, and what it has done to the subject stays. -/
lemma perform_of_panic {earlier : List (Attempt T S E C X)} {a : Attempt T S E C X} {subject t : T}
    {message : String} (hearlier : Return earlier subject)
    (ha : a.act (leave earlier subject) = .panicked t message)
    (later : List (Attempt T S E C X)) :
    perform (earlier ++ a :: later) subject
      = ⟨t, calls (earlier ++ [a]) subject, some message⟩ := by
  rw [perform_append hearlier, perform, ha, calls_append]
  rfl

/-- A performance that panics does so at some attempt, before which nothing panics. -/
lemma exists_of_panic {as : List (Attempt T S E C X)} {subject : T} {message : String}
    (h : (perform as subject).panic = some message) :
    ∃ earlier a later t, as = earlier ++ a :: later ∧ Return earlier subject ∧
      a.act (leave earlier subject) = .panicked t message := by
  induction as generalizing subject with
  | nil => cases h
  | cons a rest ih =>
    rw [perform] at h
    cases hact : a.act subject with
    | finished subject' =>
      rw [hact] at h
      obtain ⟨earlier, b, later, t, rfl, hearlier, hb⟩ := ih h
      have hsubject : subject' = (a.act subject).subject := by rw [hact, Effect.subject]
      refine ⟨a :: earlier, b, later, t, rfl, return_cons_iff.2 ⟨subject', hact, hearlier⟩, ?_⟩
      rw [hsubject] at hb
      exact hb
    | panicked t message' =>
      rw [hact] at h
      cases h
      exact ⟨[], a, rest, t, rfl, rfl, hact⟩

/-- Nothing is performed after a panic. -/
lemma perform_append_of_panic {as : List (Attempt T S E C X)} {subject : T} {message : String}
    (h : (perform as subject).panic = some message) (bs : List (Attempt T S E C X)) :
    perform (as ++ bs) subject = perform as subject := by
  obtain ⟨earlier, a, later, t, rfl, hearlier, ha⟩ := exists_of_panic h
  rw [List.append_assoc, List.cons_append, perform_of_panic hearlier ha,
    perform_of_panic hearlier ha]

/-- Calls that return in any case return. -/
lemma return_map_ofStep (steps : List (Step T S E C X)) (subject : T) :
    Return (steps.map ofStep) subject := by
  induction steps generalizing subject with
  | nil => rfl
  | cons step rest ih => exact ih (step.effect subject)

end Attempt

/-! ## The attempts of a dispatch -/

/-- The call of a listener that is to be called. -/
def Pending.toAttempt (p : Pending T S E C) : Attempt T S E C X :=
  ⟨.listener p.name p.moment, p.run⟩

/-- Listeners are called by performing their attempts. -/
lemma Pending.runAll_eq_perform (ps : List (Pending T S E C)) (subject : T) :
    (runAll ps subject : Progress T S E C X) = Attempt.perform (ps.map toAttempt) subject := by
  induction ps generalizing subject with
  | nil => rfl
  | cons p rest ih =>
    simp only [runAll, List.map_cons, Attempt.perform, toAttempt]
    cases p.run subject with
    | finished subject' => simp only [ih]
    | panicked subject' message => rfl

namespace Machine

variable [Descriptor S] [DecidableEq E]

/-- The listeners called at a moment. -/
def attemptsAt (m : Machine T S E C X) (moment : Moment S E C) : List (Attempt T S E C X) :=
  (m.due moment).map Pending.toAttempt

/-- The listeners called before resolution. -/
def attemptsBefore (m : Machine T S E C X) (source : S) (event : E) (context : Option C) :
    List (Attempt T S E C X) :=
  (momentsBefore source event context).flatMap m.attemptsAt

/-- What is called once resolution has ended, for the subject that it was given. -/
def attemptsAfter (m : Machine T S E C X) (ready : T) (source : S) (event : E)
    (context : Option C) : Resolution S → List (Attempt T S E C X)
  | .target target =>
    .ofStep ⟨.write target, fun t => m.accessor.set t target⟩ ::
      (momentsAfter source event target context).flatMap m.attemptsAt
  | .guardFails _ => []
  | .unresolved =>
    [.ofStep ⟨.unresolved source event (m.unresolved ready source event), fun t => t⟩]

lemma map_toStep_attemptsAt (m : Machine T S E C X) (moment : Moment S E C) :
    (m.attemptsAt moment).map Attempt.toStep = m.phaseAt moment := by
  rw [← map_toStep_due, attemptsAt, List.map_map]
  rfl

lemma map_toStep_attemptsBefore (m : Machine T S E C X) (source : S) (event : E)
    (context : Option C) :
    (m.attemptsBefore source event context).map Attempt.toStep
      = m.stepsBefore source event context := by
  rw [attemptsBefore, List.map_flatMap, ← flatMap_momentsBefore]
  simp only [map_toStep_attemptsAt]

/-- The subject that resolution is given is the one that the listeners before it leave. -/
lemma leave_attemptsBefore (m : Machine T S E C X) (subject : T) (source : S) (event : E)
    (context : Option C) :
    Attempt.leave (m.attemptsBefore source event context) subject
      = m.ready subject source event context := by
  rw [Attempt.leave, map_toStep_attemptsBefore]
  rfl

variable [HasFields T] [HasFields C]

/-- Everything that a dispatch attempts: the listeners before resolution, the guards, and what
follows from how resolution ends. -/
def attempts (m : Machine T S E C X) (subject : T) (source : S) (event : E)
    (context : Option C) : List (Attempt T S E C X) :=
  let ready := m.ready subject source event context
  m.attemptsBefore source event context
    ++ (m.guardSteps ready source event context).map .ofStep
    ++ m.attemptsAfter ready source event context (m.resolution ready source event context)

/-- The attempts of a dispatch are the steps of its protocol. -/
lemma map_toStep_attempts (m : Machine T S E C X) (subject : T) (source : S) (event : E)
    (context : Option C) :
    (m.attempts subject source event context).map Attempt.toStep
      = m.protocol subject source event context := by
  simp only [attempts, protocol, List.map_append, map_toStep_attemptsBefore,
    Attempt.map_toStep_map_ofStep]
  cases m.resolution (m.ready subject source event context) source event context with
  | target target =>
    simp only [attemptsAfter, flatMap_momentsAfter, List.map_cons, List.map_flatMap,
      map_toStep_attemptsAt, Attempt.toStep_ofStep]
  | guardFails e => rfl
  | unresolved => rfl

/-- Asking guards never panics and leaves the subject alone. -/
lemma return_guards (m : Machine T S E C X) (ready : T) (source : S) (event : E)
    (context : Option C) :
    Attempt.Return ((m.guardSteps ready source event context).map .ofStep) ready ∧
      Attempt.leave ((m.guardSteps ready source event context).map .ofStep) ready = ready := by
  refine ⟨Attempt.return_map_ofStep _ _, ?_⟩
  rw [Attempt.leave, Attempt.map_toStep_map_ofStep]
  exact (Transition.calls_guardSteps _ _ _ _ _).2

/-- If a listener panics before resolution, nothing else is performed. -/
lemma perform_attempts_of_panic (m : Machine T S E C X) {subject : T} {source : S} {event : E}
    {context : Option C} {message : String}
    (h : (Attempt.perform (m.attemptsBefore source event context) subject).panic = some message) :
    Attempt.perform (m.attempts subject source event context) subject
      = Attempt.perform (m.attemptsBefore source event context) subject := by
  rw [attempts, List.append_assoc]
  exact Attempt.perform_append_of_panic h _

/-- If the listeners before resolution return, what follows resolution is performed on the
subject that is ready. -/
lemma perform_attempts (m : Machine T S E C X) {subject : T} {source : S} {event : E}
    {context : Option C}
    (h : Attempt.Return (m.attemptsBefore source event context) subject) :
    let ready := m.ready subject source event context
    let after := Attempt.perform (m.attemptsAfter ready source event context
      (m.resolution ready source event context)) ready
    Attempt.perform (m.attempts subject source event context) subject
      = ⟨after.subject,
          Attempt.calls (m.attemptsBefore source event context) subject
            ++ Step.calls (m.guardSteps ready source event context) ready ++ after.calls,
          after.panic⟩ := by
  intro ready after
  obtain ⟨hguards, hleave⟩ := m.return_guards ready source event context
  have hready : Attempt.leave (m.attemptsBefore source event context) subject = ready :=
    m.leave_attemptsBefore subject source event context
  have hcalls : Attempt.calls ((m.guardSteps ready source event context).map .ofStep) ready
      = Step.calls (m.guardSteps ready source event context) ready := by
    rw [Attempt.calls, Attempt.map_toStep_map_ofStep]
  rw [attempts, List.append_assoc, Attempt.perform_append h, hready,
    Attempt.perform_append hguards, hleave, hcalls, List.append_assoc]

variable [OfEvalError X]

/-- How a dispatch ends if no listener panics, by how resolution ends. -/
def conclusion (m : Machine T S E C X) (ready : T) (source : S) (event : E) :
    Resolution S → Outcome S X
  | .target target => .moved target
  | .guardFails e => .failed (OfEvalError.ofEvalError e)
  | .unresolved => .failed (m.unresolved ready source event)

/-- **Every dispatch performs its attempts.**  It ends with the first panic, if there is one, and
otherwise as its resolution says. -/
lemma dispatchFrom_eq_perform (m : Machine T S E C X) (subject : T) (source : S) (event : E)
    (context : Option C) :
    let ready := m.ready subject source event context
    let performed := Attempt.perform (m.attempts subject source event context) subject
    m.dispatchFrom subject source event context
      = ⟨performed.subject, performed.calls,
          match performed.panic with
          | some message => .panicked message
          | none => m.conclusion ready source event (m.resolution ready source event context)⟩ := by
  intro ready performed
  have hrun (moments : List (Moment S E C)) (t : T) :
      (Pending.runAll (moments.flatMap m.due) t : Progress T S E C X)
        = Attempt.perform (moments.flatMap m.attemptsAt) t := by
    rw [Pending.runAll_eq_perform, List.map_flatMap]
    rfl
  have hbefore : (Pending.runAll ((momentsBefore source event context).flatMap m.due) subject :
      Progress T S E C X)
        = Attempt.perform (m.attemptsBefore source event context) subject := hrun _ subject
  cases hpanic : (Attempt.perform (m.attemptsBefore source event context) subject).panic with
  | some message =>
    -- a listener panics before resolution
    have hperformed := m.perform_attempts_of_panic hpanic
    simp only [dispatchFrom, hbefore, performed, hperformed, hpanic]
  | none =>
    -- resolution takes place
    have hreturns := Attempt.perform_of_returns hpanic
    rw [leave_attemptsBefore] at hreturns
    have hperformed := m.perform_attempts hpanic
    have hresolve := m.resolve_eq ready source event context
    simp only [dispatchFrom, hbefore, hreturns, performed, hperformed]
    cases hresolution : m.resolution ready source event context with
    | target target =>
      rw [hresolution] at hresolve
      simp only [ready] at hresolve
      simp only [hresolve, hrun, attemptsAfter, Attempt.perform, Attempt.ofStep]
      -- a listener may panic after resolution
      cases (Attempt.perform ((momentsAfter source event target context).flatMap m.attemptsAt)
        (m.accessor.set ready target)).panic <;> rfl
    | guardFails e =>
      rw [hresolution] at hresolve
      simp only [ready] at hresolve
      simp only [hresolve, attemptsAfter, Attempt.perform, conclusion, List.append_nil]
    | unresolved =>
      rw [hresolution] at hresolve
      simp only [ready] at hresolve
      simp only [hresolve, attemptsAfter, Attempt.perform, Attempt.ofStep, conclusion,
        List.append_assoc]
      rfl

end Machine

end GuardedMachine
