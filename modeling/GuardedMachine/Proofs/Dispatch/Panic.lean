/-
# Panics

A listener that panics cuts its dispatch off: the calls up to its own are made, and no other; what
was done to the subject by then stays; and whether the target has been written depends only on
whether the listener is called before resolution or after it.  The machine itself is not
affected.

What the dispatch would have been otherwise is the dispatch of the machine with another listener
in the place of the one that panics, which is called at the same moments (`StandsFor`).  Up to
and including the call of that listener the two dispatches make the same calls, since no listener
is called twice in a dispatch (`exists_listener_of_attempts`).
-/
import GuardedMachine.Proofs.Dispatch.Attempts
import GuardedMachine.Proofs.Dispatch.Bindings
import GuardedMachine.Proofs.Dispatch.Runs

namespace GuardedMachine

variable {T S E C X : Type}

/-! ## A place in a list -/

/-- A place in two lists joined is a place in one of them. -/
lemma append_eq_append_cons {α : Type} {as bs earlier later : List α} {a : α}
    (h : as ++ bs = earlier ++ a :: later) :
    (∃ rest, as = earlier ++ a :: rest ∧ later = rest ++ bs) ∨
      ∃ rest, earlier = as ++ rest ∧ bs = rest ++ a :: later := by
  rcases List.append_eq_append_iff.1 h with ⟨rest, hearlier, hbs⟩ | ⟨rest, has, hlater⟩
  · exact Or.inr ⟨rest, hearlier, hbs⟩
  · rcases rest with _ | ⟨b, rest⟩
    · exact Or.inr ⟨[], by rw [has, List.append_nil, List.append_nil], hlater.symm⟩
    · obtain ⟨rfl, rfl⟩ := List.cons.inj hlater
      exact Or.inl ⟨rest, has, rfl⟩

/-- A place in lists joined is a place in one of them. -/
lemma flatMap_eq_append_cons {α β : Type} {f : α → List β} {as : List α} {earlier later : List β}
    {b : β} (h : as.flatMap f = earlier ++ b :: later) :
    ∃ as₁ a as₂ bs₁ bs₂, as = as₁ ++ a :: as₂ ∧ f a = bs₁ ++ b :: bs₂ ∧
      earlier = as₁.flatMap f ++ bs₁ := by
  induction as generalizing earlier with
  | nil => simp at h
  | cons a rest ih =>
    rw [List.flatMap_cons] at h
    rcases append_eq_append_cons h with ⟨bs₂, ha, -⟩ | ⟨more, rfl, hrest⟩
    · exact ⟨[], a, rest, earlier, bs₂, rfl, ha, rfl⟩
    · obtain ⟨as₁, a', as₂, bs₁, bs₂, rfl, ha', rfl⟩ := ih hrest
      exact ⟨a :: as₁, a', as₂, bs₁, bs₂, rfl, ha', by rw [List.flatMap_cons, List.append_assoc]⟩

/-- The first calls that are made are those of the attempts with which a list starts. -/
lemma Attempt.take_calls_perform {as earlier : List (Attempt T S E C X)} {a : Attempt T S E C X}
    (h : earlier ++ [a] <+: as) {subject : T} (hearlier : Return earlier subject) :
    (perform as subject).calls.take (earlier.length + 1) = calls (earlier ++ [a]) subject := by
  obtain ⟨later, rfl⟩ := h
  have hfirst : (perform (a :: later) (leave earlier subject)).calls.take 1
      = [⟨leave earlier subject, a.callee⟩] := by
    rw [perform]
    cases a.act (leave earlier subject) <;> rfl
  rw [List.append_assoc, List.singleton_append, perform_append hearlier]
  simp only
  rw [← length_calls earlier subject, List.take_length_add_append, hfirst, calls_append]
  rfl

variable [Descriptor S] [DecidableEq E]

/-! ## A listener in the place of another -/

/-- The call of a listener at a moment, if it is called then. -/
def Listener.attempt? (l : Listener T S E C) (moment : Moment S E C) :
    Option (Attempt T S E C X) :=
  (l.response? moment).map fun run => ⟨.listener l.name moment, run⟩

lemma Listener.binding_of_attempt? {l : Listener T S E C} {moment : Moment S E C}
    {a : Attempt T S E C X} (h : l.attempt? moment = some a) :
    l.reaction.binding = moment.binding := by
  obtain ⟨run, hrun, -⟩ := Option.map_eq_some_iff.1 h
  exact binding_eq_of_response? hrun

/-- A listener that has the name of another one and is called at the same moments, whatever it
does then. -/
structure Listener.StandsFor (l' l : Listener T S E C) : Prop where
  name : l'.name = l.name
  called : ∀ moment, (l'.response? moment).isSome = (l.response? moment).isSome

namespace Listener.StandsFor

variable {l l' : Listener T S E C} {moment : Moment S E C}

lemma attempt?_eq_none (h : l'.StandsFor l)
    (hl : (l.attempt? moment : Option (Attempt T S E C X)) = none) :
    (l'.attempt? moment : Option (Attempt T S E C X)) = none := by
  have hcalled := h.called moment
  rw [attempt?, Option.map_eq_none_iff] at hl ⊢
  rw [hl] at hcalled
  exact Option.isNone_iff_eq_none.1 (by simpa using hcalled)

lemma exists_attempt? (h : l'.StandsFor l) {a : Attempt T S E C X}
    (hl : l.attempt? moment = some a) :
    ∃ a' : Attempt T S E C X, l'.attempt? moment = some a' ∧ a'.callee = a.callee := by
  obtain ⟨run, hrun, rfl⟩ := Option.map_eq_some_iff.1 hl
  have hcalled := h.called moment
  rw [hrun] at hcalled
  obtain ⟨run', hrun'⟩ := Option.isSome_iff_exists.1 hcalled
  refine ⟨⟨.listener l'.name moment, run'⟩, ?_, ?_⟩
  · rw [attempt?, hrun']
    rfl
  · rw [h.name]

/-- The calls of the two listeners at a moment differ only in what they do. -/
lemma callee_eq (h : l'.StandsFor l) {a a' : Attempt T S E C X} (hl : l.attempt? moment = some a)
    (hl' : l'.attempt? moment = some a') : a'.callee = a.callee := by
  obtain ⟨b, hb, hcallee⟩ := h.exists_attempt? hl
  rw [Option.some.inj (hl'.symm.trans hb), hcallee]

end Listener.StandsFor

/-- A reaction to the same, with what it does changed. -/
def Reaction.mapEffect (f : Effect T → Effect T) : Reaction T S E C → Reaction T S E C
  | .machine timing run => .machine timing fun source e t => f (run source e t)
  | .state descriptor side run => .state descriptor side fun e t => f (run e t)
  | .event e timing run =>
    .event e timing fun source target context t => f (run source target context t)
  | .transform source target run => .transform source target fun e t => f (run e t)
  | .action run => .action fun source e target context t => f (run source e target context t)

/-- The listener that does the same, but returns where the given one panics. -/
def Listener.returning (l : Listener T S E C) : Listener T S E C :=
  ⟨l.name, l.reaction.mapEffect fun effect => .finished effect.subject⟩

lemma Listener.response?_returning (l : Listener T S E C) (moment : Moment S E C) :
    l.returning.response? moment
      = (l.response? moment).map fun run t => .finished (run t).subject := by
  obtain ⟨name, reaction⟩ := l
  cases reaction <;> cases moment <;>
    simp only [returning, Reaction.mapEffect, response?, Option.map_if, Option.map_some,
      Option.map_none]

lemma Listener.returning_standsFor (l : Listener T S E C) : l.returning.StandsFor l :=
  ⟨rfl, fun moment => by rw [response?_returning, Option.isSome_map]⟩

namespace Machine

lemma attemptsAt_eq_filterMap (m : Machine T S E C X) (moment : Moment S E C) :
    m.attemptsAt moment = m.listeners.filterMap fun l => l.attempt? moment := by
  rw [attemptsAt, due, List.map_filterMap]
  simp only [Option.map_map]
  rfl

section Replace

variable {m : Machine T S E C X} {pre post : List (Listener T S E C)} {l l' : Listener T S E C}

/-- A listener in the place of another does not matter when that one is not called. -/
lemma attemptsAt_replace (hm : m.listeners = pre ++ l :: post) (h : l'.StandsFor l)
    {moment : Moment S E C} (hl : (l.attempt? moment : Option (Attempt T S E C X)) = none) :
    ({ m with listeners := pre ++ l' :: post }).attemptsAt moment = m.attemptsAt moment := by
  rw [attemptsAt_eq_filterMap, attemptsAt_eq_filterMap, hm]
  simp only [List.filterMap_append, List.filterMap_cons, hl, h.attempt?_eq_none hl]

lemma flatMap_attemptsAt_replace (hm : m.listeners = pre ++ l :: post) (h : l'.StandsFor l)
    {moments : List (Moment S E C)}
    (hl : ∀ moment ∈ moments, l.reaction.binding ≠ moment.binding) :
    moments.flatMap ({ m with listeners := pre ++ l' :: post }).attemptsAt
      = moments.flatMap m.attemptsAt := by
  refine List.flatMap_congr fun moment hmoment => attemptsAt_replace hm h ?_
  rw [Listener.attempt?, Listener.response?_eq_none (hl moment hmoment)]
  rfl

end Replace

/-- A call among those of some moments with different bindings is that of a listener at one of
them.  With another listener in its place, that one is called instead, after the same calls. -/
lemma exists_listener_of_attempts {m : Machine T S E C X} {moments : List (Moment S E C)}
    (hmoments : (moments.map Moment.binding).Nodup) {earlier later : List (Attempt T S E C X)}
    {a : Attempt T S E C X} (h : moments.flatMap m.attemptsAt = earlier ++ a :: later) :
    ∃ pre l post moment, m.listeners = pre ++ l :: post ∧ moment ∈ moments ∧
      l.attempt? moment = some a ∧ ∀ l', l'.StandsFor l → ∃ a', l'.attempt? moment = some a' ∧
        earlier ++ [a']
          <+: moments.flatMap ({ m with listeners := pre ++ l' :: post }).attemptsAt := by
  obtain ⟨moments₁, moment, moments₂, as₁, as₂, rfl, ha, rfl⟩ := flatMap_eq_append_cons h
  rw [attemptsAt_eq_filterMap] at ha
  obtain ⟨pre₁, rest, hlisteners, hpre₁, hrest⟩ := List.filterMap_eq_append_iff.1 ha
  obtain ⟨pre₂, l, post, rfl, hpre₂, hl, hpost⟩ := List.filterMap_eq_cons_iff.1 hrest
  have hm : m.listeners = (pre₁ ++ pre₂) ++ l :: post := by rw [hlisteners, List.append_assoc]
  refine ⟨pre₁ ++ pre₂, l, post, moment, hm, by simp, hl, fun l' hl' => ?_⟩
  obtain ⟨a', ha', -⟩ := hl'.exists_attempt? hl
  -- the listener is not called at the moments before
  have hbinding : l.reaction.binding = moment.binding := Listener.binding_of_attempt? hl
  have hne : ∀ moment' ∈ moments₁, l.reaction.binding ≠ moment'.binding := by
    intro moment' hmoment' heq
    rw [List.map_append, List.map_cons, List.nodup_append] at hmoments
    exact hmoments.2.2 _ (List.mem_map_of_mem hmoment') _ (by simp) (heq.symm.trans hbinding)
  refine ⟨a', ha', as₂ ++ moments₂.flatMap
    ({ m with listeners := (pre₁ ++ pre₂) ++ l' :: post }).attemptsAt, ?_⟩
  have hmoment : ({ m with listeners := (pre₁ ++ pre₂) ++ l' :: post }).attemptsAt moment
      = as₁ ++ a' :: as₂ := by
    rw [attemptsAt_eq_filterMap]
    simp only [List.filterMap_append, List.filterMap_cons, ha', hpre₁, hpost,
      List.filterMap_eq_nil_iff.2 hpre₂, List.append_nil]
  rw [List.flatMap_append, List.flatMap_cons, flatMap_attemptsAt_replace hm hl' hne, hmoment]
  simp only [List.append_assoc, List.cons_append, List.nil_append]

/-! ## The listener that panics -/

/-- Calls of listeners write nothing. -/
lemma filterMap_written_attempts (m : Machine T S E C X) (moments : List (Moment S E C)) :
    (moments.flatMap m.attemptsAt).filterMap (fun a => a.callee.written?) = [] := by
  rw [List.filterMap_eq_nil_iff]
  intro a ha
  obtain ⟨moment, -, ha⟩ := List.mem_flatMap.1 ha
  obtain ⟨p, -, rfl⟩ := List.mem_map.1 ha
  rfl

variable [HasFields T] [HasFields C]

/-- What may panic in a dispatch is a listener, which is called either before resolution or after
the target has been written. -/
lemma place_of_panic {m : Machine T S E C X} {subject : T} {source : S} {event : E}
    {context : Option C} {earlier later : List (Attempt T S E C X)} {a : Attempt T S E C X}
    (h : m.attempts subject source event context = earlier ++ a :: later) {t t' : T}
    {message : String} (ha : a.act t = .panicked t' message) :
    let ready := m.ready subject source event context
    (∃ rest, m.attemptsBefore source event context = earlier ++ a :: rest) ∨
      ∃ target more, m.resolution ready source event context = .target target ∧
        earlier = m.attemptsBefore source event context
          ++ (m.guardSteps ready source event context).map .ofStep
          ++ .ofStep ⟨.write target, fun t => m.accessor.set t target⟩ :: more ∧
        (momentsAfter source event target context).flatMap m.attemptsAt = more ++ a :: later := by
  intro ready
  have not_step {step : Step T S E C X} (heq : .ofStep step = a) : False := by
    rw [← heq, Attempt.ofStep] at ha
    cases ha
  rcases append_eq_append_cons h with ⟨rest, hbefore, -⟩ | ⟨more, rfl, hafter⟩
  · rcases append_eq_append_cons hbefore with ⟨rest', hbefore, -⟩ | ⟨more, -, hguards⟩
    · exact Or.inl ⟨rest', hbefore⟩
    · -- asking a guard does not panic
      have hmem : a ∈ (m.guardSteps ready source event context).map Attempt.ofStep := by
        rw [hguards]
        simp
      obtain ⟨step, -, heq⟩ := List.mem_map.1 hmem
      exact (not_step heq).elim
  · right
    change m.attemptsAfter ready source event context (m.resolution ready source event context)
      = more ++ a :: later at hafter
    cases hresolution : m.resolution ready source event context with
    | target target =>
      rw [hresolution, attemptsAfter] at hafter
      rcases more with _ | ⟨write, more⟩
      · exact (not_step (List.cons.inj hafter).1).elim
      · obtain ⟨rfl, hlater⟩ := List.cons.inj hafter
        exact ⟨target, more, rfl, rfl, hlater⟩
    | guardFails e =>
      rw [hresolution, attemptsAfter] at hafter
      simp at hafter
    | unresolved =>
      -- neither does a report
      have hmem : a ∈ more ++ a :: later := by simp
      rw [← hafter, hresolution, attemptsAfter, List.mem_singleton] at hmem
      exact (not_step hmem.symm).elim

/-- A listener in the place of another does not matter before resolution, nor to it, if that one is
not called before. -/
lemma attempts_replace_of_not_before {m : Machine T S E C X} {pre post : List (Listener T S E C)}
    {l l' : Listener T S E C} {source : S} {event : E} {context : Option C}
    (hm : m.listeners = pre ++ l :: post) (h : l'.StandsFor l)
    (hne : ∀ moment ∈ momentsBefore source event context,
      l.reaction.binding ≠ moment.binding) (subject : T) :
    let m' := { m with listeners := pre ++ l' :: post }
    let ready := m.ready subject source event context
    m'.attempts subject source event context
      = m.attemptsBefore source event context
        ++ (m.guardSteps ready source event context).map .ofStep
        ++ m'.attemptsAfter ready source event context
          (m.resolution ready source event context) := by
  intro m' ready
  have hbefore : m'.attemptsBefore source event context = m.attemptsBefore source event context :=
    flatMap_attemptsAt_replace hm h hne
  have hready : m'.ready subject source event context = ready := by
    rw [← leave_attemptsBefore, hbefore, leave_attemptsBefore]
  rw [attempts, hready, hbefore]
  rfl

/-- With another listener in the place of the one that panics, that one is called instead, after the
same calls.  Whether the target is written by then is up to the moment of the call. -/
lemma exists_listener_of_panic {m : Machine T S E C X} {subject : T} {source : S} {event : E}
    {context : Option C} {earlier later : List (Attempt T S E C X)} {a : Attempt T S E C X}
    (h : m.attempts subject source event context = earlier ++ a :: later) {t t' : T}
    {message : String} (ha : a.act t = .panicked t' message) :
    let ready := m.ready subject source event context
    let writes := earlier.filterMap fun b => b.callee.written?
    ∃ pre l post moment, m.listeners = pre ++ l :: post ∧ l.attempt? moment = some a ∧
      (∀ l', l'.StandsFor l → ∃ a', l'.attempt? moment = some a' ∧ earlier ++ [a']
        <+: ({ m with listeners := pre ++ l' :: post }).attempts subject source event context) ∧
      (moment ∈ momentsBefore source event context ∧ writes = [] ∨
        ∃ target, m.resolution ready source event context = .target target ∧
          moment ∈ momentsAfter source event target context ∧ writes = [target]) := by
  intro ready writes
  have hnodup (target : S) := nodup_bindings source event target context
  simp only [List.map_append, List.nodup_append] at hnodup
  rcases place_of_panic h ha with ⟨rest, hbefore⟩ | ⟨target, more, hresolution, hearlier, hafter⟩
  · -- a listener before resolution
    obtain ⟨pre, l, post, moment, hm, hmoment, hl, hreplace⟩ :=
      exists_listener_of_attempts (hnodup source).1 hbefore
    refine ⟨pre, l, post, moment, hm, hl, fun l' hl' => ?_, Or.inl ⟨hmoment, ?_⟩⟩
    · obtain ⟨a', ha', hstart⟩ := hreplace l' hl'
      refine ⟨a', ha', hstart.trans ?_⟩
      rw [attempts, List.append_assoc]
      exact List.prefix_append _ _
    · have hwrites := m.filterMap_written_attempts (momentsBefore source event context)
      rw [← attemptsBefore, hbefore, List.filterMap_append] at hwrites
      exact (List.append_eq_nil_iff.1 hwrites).1
  · -- a listener after the target has been written
    obtain ⟨pre, l, post, moment, hm, hmoment, hl, hreplace⟩ :=
      exists_listener_of_attempts (hnodup target).2.1 hafter
    refine ⟨pre, l, post, moment, hm, hl, fun l' hl' => ?_,
      Or.inr ⟨target, hresolution, hmoment, ?_⟩⟩
    · have hbinding : l.reaction.binding = moment.binding := Listener.binding_of_attempt? hl
      have hne : ∀ moment' ∈ momentsBefore source event context,
          l.reaction.binding ≠ moment'.binding := by
        intro moment' hmoment' heq
        exact (hnodup target).2.2 _ (List.mem_map_of_mem hmoment') _ (List.mem_map_of_mem hmoment)
          (heq.symm.trans hbinding)
      have hattempts := attempts_replace_of_not_before hm hl' hne subject
      change m.resolution (m.ready subject source event context) source event context
        = .target target at hresolution
      obtain ⟨a', ha', hstart⟩ := hreplace l' hl'
      refine ⟨a', ha', ?_⟩
      rw [hattempts, hresolution, hearlier, List.append_assoc, List.cons_append]
      exact (List.prefix_append_right_inj _).2 ((List.prefix_cons_inj _).2 hstart)
    · have hbefore := m.filterMap_written_attempts (momentsBefore source event context)
      have hwrites := m.filterMap_written_attempts (momentsAfter source event target context)
      rw [hafter, List.filterMap_append] at hwrites
      have hguards : ((m.guardSteps ready source event context).map Attempt.ofStep).filterMap
          (fun b => b.callee.written?) = [] := by
        rw [List.filterMap_map]
        exact m.filterMap_written_guardSteps ready source event context
      have hmore := (List.append_eq_nil_iff.1 hwrites).1
      rw [show writes = earlier.filterMap _ from rfl, hearlier, List.filterMap_append,
        List.filterMap_append, hguards, attemptsBefore, hbefore, List.filterMap_cons, hmore]
      rfl

variable [OfEvalError X]

/-- A dispatch has no other panic than that of what it performs. -/
lemma panic_of_outcome {m : Machine T S E C X} {subject : T} {source : S} {event : E}
    {context : Option C} {message : String}
    (h : (m.dispatchFrom subject source event context).outcome = .panicked message) :
    (Attempt.perform (m.attempts subject source event context) subject).panic = some message := by
  rw [dispatchFrom_eq_perform] at h
  cases hpanic : (Attempt.perform (m.attempts subject source event context) subject).panic with
  | some message' =>
    simp only [hpanic] at h
    rw [Outcome.panicked.inj h]
  | none =>
    -- resolution does not end with a panic
    simp only [hpanic] at h
    cases hresolution : m.resolution (m.ready subject source event context) source event context
      <;> rw [hresolution, conclusion] at h <;> cases h

/-- **A panic truncates a dispatch.**  If a call that is attempted panics, and none before it does,
then the dispatch ends with it: there is no result; the calls made are the first ones of the
protocol, up to the one that panics; and the subject is the one that this one leaves.  It is the
call of a listener.  With any other listener in its place, such as the one that returns instead
(`Listener.returning`), that one is called there, and the dispatch starts with the same calls, and
goes on if it returns.  If the listener is called before resolution, nothing has been written; if
it is called later, the target has been, once.

There is no other way for a dispatch to panic.  Later dispatches are those of the same machine on
the subject that the panic has left. -/
theorem dispatchFrom_truncated_by_panic (m : Machine T S E C X) (subject : T) (source : S)
    (event : E) (context : Option C) :
    let d := m.dispatchFrom subject source event context
    let ready := m.ready subject source event context
    let attempts := m.attempts subject source event context
    (∀ (earlier later : List (Attempt T S E C X)) (a : Attempt T S E C X) (t : T)
        (message : String), attempts = earlier ++ a :: later →
      Attempt.Return earlier subject →
      a.act (Attempt.leave earlier subject) = .panicked t message →
      let k := earlier.length + 1
      d.outcome = .panicked message ∧ d.subject = t ∧ d.calls.length = k ∧
      d.calls = Step.calls ((m.protocol subject source event context).take k) subject ∧
      ∃ (pre post : List (Listener T S E C)) (l : Listener T S E C) (moment : Moment S E C),
        m.listeners = pre ++ l :: post ∧ a.callee = .listener l.name moment ∧
        l.response? moment = some a.act ∧
        (∀ l' : Listener T S E C, l'.StandsFor l →
          let m' := { m with listeners := pre ++ l' :: post }
          (∃ a', l'.attempt? moment = some a' ∧
            earlier ++ [a'] <+: m'.attempts subject source event context) ∧
          d.calls = (m'.dispatchFrom subject source event context).calls.take k) ∧
        (moment ∈ momentsBefore source event context ∧ d.writes = [] ∨
          ∃ target, m.resolution ready source event context = .target target ∧
            moment ∈ momentsAfter source event target context ∧ d.writes = [target])) ∧
    (∀ message, d.outcome = .panicked message →
      ∃ (earlier later : List (Attempt T S E C X)) (a : Attempt T S E C X) (t : T),
        attempts = earlier ++ a :: later ∧ Attempt.Return earlier subject ∧
        a.act (Attempt.leave earlier subject) = .panicked t message) ∧
    (∀ start inputs inputs', m.after start inputs = subject → m.accessor.get subject = source →
      m.run start (inputs ++ (event, context) :: inputs')
        = m.run start inputs ++ d :: m.run d.subject inputs') := by
  intro d ready attempts
  have hdispatch := m.dispatchFrom_eq_perform subject source event context
  refine ⟨fun earlier later a t message hattempts hearlier ha => ?_, fun message hmessage => ?_, ?_⟩
  · intro k
    have hperform := Attempt.perform_of_panic hearlier ha later
    rw [← hattempts] at hperform
    have hd : d = ⟨t, Attempt.calls (earlier ++ [a]) subject, .panicked message⟩ := by
      simp only [d, hdispatch, attempts] at hperform ⊢
      rw [hperform]
    have hlength : d.calls.length = k := by
      rw [hd, Attempt.length_calls, List.length_append]
      rfl
    obtain ⟨pre, l, post, moment, hm, hl, hreplace, hwrites⟩ :=
      exists_listener_of_panic hattempts ha
    obtain ⟨run, hrun, hcall⟩ := Option.map_eq_some_iff.1 hl
    refine ⟨by rw [hd], by rw [hd], hlength, ?_, pre, post, l, moment, hm, ?_, ?_, ?_, ?_⟩
    · have htake : (earlier ++ a :: later).take k = earlier ++ [a] := List.take_length_add_append 1
      rw [hd, ← map_toStep_attempts,
        show m.attempts subject source event context = _ from hattempts, ← List.map_take, htake]
      rfl
    · rw [← hcall]
    · rw [← hcall, hrun]
    · intro l' hl' m'
      obtain ⟨a', ha', hstart⟩ := hreplace l' hl'
      refine ⟨⟨a', ha', hstart⟩, ?_⟩
      rw [hd, dispatchFrom_eq_perform]
      simp only
      rw [Attempt.take_calls_perform hstart hearlier, Attempt.calls_append, Attempt.calls_append]
      simp only [Attempt.calls, Attempt.toStep, List.map_cons, List.map_nil, Step.calls_cons,
        Step.calls_nil, hl'.callee_eq hl ha']
    · have hd_writes : d.writes = earlier.filterMap fun b => b.callee.written? := by
        rw [hd, Dispatch.writes, Attempt.calls, Step.filterMap_calls, List.filterMap_map,
          List.filterMap_append, List.filterMap_cons, ← hcall]
        exact List.append_nil _
      rw [hd_writes]
      exact hwrites
  · obtain ⟨earlier, a, later, t, hpanic⟩ :=
      Attempt.exists_of_panic (panic_of_outcome hmessage)
    exact ⟨earlier, later, a, t, hpanic⟩
  · intro start inputs inputs' hstart hsource
    have hrun := m.run_append start inputs ((event, context) :: inputs')
    rw [hrun, hstart, run, dispatch, hsource]

end Machine

/-- A door that jams when it is opened: what is bound to open doors panics, and has stopped the bell
by then. -/
def Door.jamming : Machine Door (Composite Bool 1) Bool Unit EvalError :=
  { Door.machine with
    listeners :=
      ⟨"jam", .state opened .enter fun _ door => .panicked { door with rung := false } "jammed"⟩
        :: Door.machine.listeners }

/-- Pushing such a door rings the bell, asks the guard, writes that the door is open, and ends with
the jam as the fourth call.  So it would start if the jam returned. -/
theorem Machine.dispatchFrom_truncated_by_panic_jammed :
    let subject : Door := ⟨Door.shut, false⟩
    let attempts := Door.jamming.attempts subject Door.shut true none
    let d := Door.jamming.dispatchFrom subject Door.shut true none
    (∃ a later, attempts = attempts.take 3 ++ a :: later ∧
      Attempt.Return (attempts.take 3) subject ∧
      a.act (Attempt.leave (attempts.take 3) subject) = .panicked ⟨Door.opened, false⟩ "jammed") ∧
    d.subject = ⟨Door.opened, false⟩ ∧ d.calls.length = 4 ∧
    ∃ pre l post, Door.jamming.listeners = pre ++ l :: post ∧
      d.calls = ({ Door.jamming with listeners := pre ++ l.returning :: post }.dispatchFrom subject
        Door.shut true none).calls.take 4 := by
  intro subject attempts d
  have hfourth : (attempts[3]?).map (fun a => a.act (Attempt.leave (attempts.take 3) subject))
      = some (.panicked ⟨Door.opened, false⟩ "jammed") := by cbv
  obtain ⟨a, hget, hpanic⟩ := Option.map_eq_some_iff.1 hfourth
  obtain ⟨hlength, hget⟩ := List.getElem?_eq_some_iff.1 hget
  have hattempts : attempts = attempts.take 3 ++ a :: attempts.drop 4 := by
    rw [← hget, ← List.drop_eq_getElem_cons hlength, List.take_append_drop]
  have hreturn : Attempt.Return (attempts.take 3) subject := by cbv
  obtain ⟨-, hsubject, hcalls, -, pre, post, l, _, hlisteners, -, -, hreplace, -⟩ :=
    (Door.jamming.dispatchFrom_truncated_by_panic subject Door.shut true none).1 _ _ _ _ _
      hattempts hreturn hpanic
  have hfour : (attempts.take 3).length + 1 = 4 := by
    rw [List.length_take_of_le (Nat.le_of_lt hlength)]
  refine ⟨⟨a, _, hattempts, hreturn, hpanic⟩, hsubject, hcalls.trans hfour, pre, l, post,
    hlisteners, ?_⟩
  rw [← hfour]
  exact (hreplace l.returning l.returning_standsFor).2

end GuardedMachine
