/-
# The protocol of a dispatch

All calls of a dispatch, in order, as one list of steps: the listeners of the phases before
resolution, the guards that resolution asks, and then, only if there is a target, the write of
the target and the listeners of the phases after it.  An event that is not resolved is reported
instead, and a guard that fails ends the list.

Because a step says what a call is told and what it leaves of the subject, the list fixes also
which subject each callback is given, and the subject in the end.
-/
import GuardedMachine.Proofs.Dispatch.Resolution

namespace GuardedMachine

variable {T S E C X : Type}

/-- How resolution ends. -/
inductive Resolution (S : Type)
  /-- Exactly one candidate passes and leads to a target. -/
  | target (target : S)
  /-- The guard of a candidate fails. -/
  | guardFails (e : EvalError)
  /-- No candidate passes, or more than one. -/
  | unresolved
deriving DecidableEq

namespace Transition

variable [HasFields T] [HasFields C]

/-- The step of asking the guard of a transition, if it has one. -/
def guardStep? (t : Transition T S E C) (subject : T) (source : S) (event : E)
    (context : Option C) : Option (Step T S E C X) :=
  t.guard.map fun g =>
    ⟨.guard g source event context (g.evaluate subject source event context).resolved, fun t => t⟩

/-- The transitions whose guards are asked: all of them, up to the first whose guard fails. -/
def asked (answer : Transition T S E C → Except EvalError Bool) :
    List (Transition T S E C) → List (Transition T S E C)
  | [] => []
  | t :: rest =>
    match answer t with
    | .ok _ => t :: asked answer rest
    | .error _ => [t]

/-- The first error among the answers of guards. -/
def firstError? (answer : Transition T S E C → Except EvalError Bool) :
    List (Transition T S E C) → Option EvalError
  | [] => none
  | t :: rest =>
    match answer t with
    | .ok _ => firstError? answer rest
    | .error e => some e

variable {answer : Transition T S E C → Except EvalError Bool}

omit [HasFields T] [HasFields C] in
lemma asked_of_ok {ts : List (Transition T S E C)} (h : ∀ t ∈ ts, ∃ b, answer t = .ok b) :
    asked answer ts = ts ∧ firstError? answer ts = none := by
  induction ts with
  | nil => exact ⟨rfl, rfl⟩
  | cons t rest ih =>
    obtain ⟨b, hb⟩ := h t (by simp)
    obtain ⟨hasked, hfirst⟩ := ih fun u hu => h u (by simp [hu])
    simp [asked, firstError?, hb, hasked, hfirst]

omit [HasFields T] [HasFields C] in
lemma asked_of_error {earlier : List (Transition T S E C)} {t : Transition T S E C}
    {e : EvalError} (hearlier : ∀ u ∈ earlier, ∃ b, answer u = .ok b)
    (ht : answer t = .error e) (later : List (Transition T S E C)) :
    asked answer (earlier ++ t :: later) = earlier ++ [t] ∧
      firstError? answer (earlier ++ t :: later) = some e := by
  induction earlier with
  | nil => simp [asked, firstError?, ht]
  | cons u rest ih =>
    obtain ⟨b, hb⟩ := hearlier u (by simp)
    obtain ⟨hasked, hfirst⟩ := ih fun v hv => hearlier v (by simp [hv])
    simp [asked, firstError?, hb, hasked, hfirst]

omit [HasFields T] [HasFields C] in
/-- Either no guard fails, or there is a first one that does. -/
lemma all_ok_or_first_error (answer : Transition T S E C → Except EvalError Bool)
    (ts : List (Transition T S E C)) :
    (∀ t ∈ ts, ∃ b, answer t = .ok b) ∨
      ∃ earlier t later e, ts = earlier ++ t :: later ∧
        (∀ u ∈ earlier, ∃ b, answer u = .ok b) ∧ answer t = .error e := by
  induction ts with
  | nil => exact Or.inl (by simp)
  | cons t rest ih =>
    rcases ht : answer t with e | b
    · exact Or.inr ⟨[], t, rest, e, rfl, by simp, ht⟩
    · rcases ih with hok | ⟨earlier, u, later, e, rfl, hearlier, hu⟩
      · exact Or.inl (by simpa [ht] using hok)
      · exact Or.inr ⟨t :: earlier, u, later, e, rfl, by simpa [ht] using hearlier, hu⟩

/-- Asking guards leaves the subject alone. -/
lemma calls_guardSteps (ts : List (Transition T S E C)) (subject : T) (source : S) (event : E)
    (context : Option C) :
    Step.calls (ts.filterMap fun t => t.guardStep? subject source event context) subject
        = (ts.filterMap fun t => t.guardCall? subject source event context :
            List (Call T S E C X)) ∧
      Step.leave (ts.filterMap fun t => (t.guardStep? subject source event context :
        Option (Step T S E C X))) subject = subject := by
  have effect_id : ∀ step ∈ ts.filterMap fun t =>
      (t.guardStep? subject source event context : Option (Step T S E C X)), step.effect = id := by
    intro step hstep
    obtain ⟨t, -, ht⟩ := List.mem_filterMap.1 hstep
    obtain ⟨g, -, rfl⟩ := Option.map_eq_some_iff.1 ht
    rfl
  constructor
  · rw [Step.calls_of_effect_id effect_id, List.map_filterMap]
    simp only [guardStep?, guardCall?, Option.map_map]
    rfl
  · exact Step.leave_of_effect_id effect_id subject

end Transition

namespace Machine

variable [Descriptor S] [DecidableEq E] [HasFields T] [HasFields C]

/-- The steps of asking the guards of the candidates: of the transitions for the event whose
source overlaps the state. -/
def guardSteps (m : Machine T S E C X) (subject : T) (source : S) (event : E)
    (context : Option C) : List (Step T S E C X) :=
  (Transition.asked (fun t => t.answer subject source event context)
      (m.transitions.filter fun t => t.event = event ∧ overlaps t.source source)).filterMap
    fun t => t.guardStep? subject source event context

/-- How resolution ends for a subject in a state. -/
def resolution (m : Machine T S E C X) (subject : T) (source : S) (event : E)
    (context : Option C) : Resolution S :=
  let candidates := m.transitions.filter fun t => t.event = event ∧ overlaps t.source source
  match Transition.firstError? (fun t => t.answer subject source event context) candidates with
  | some e => .guardFails e
  | none =>
    match candidates.filter fun t => t.passes subject source event context with
    | [t] => .target t.target
    | _ => .unresolved

/-- All steps of a dispatch: the phases before resolution; the guards; and then, for a target,
the write and the phases after it, or for an event that is not resolved, its report. -/
def protocol (m : Machine T S E C X) (subject : T) (source : S) (event : E)
    (context : Option C) : List (Step T S E C X) :=
  let ready := m.ready subject source event context
  m.stepsBefore source event context
    ++ m.guardSteps ready source event context
    ++ match m.resolution ready source event context with
      | .target target => m.stepsAfter source event target context
      | .guardFails _ => []
      | .unresolved =>
        [⟨.unresolved source event (m.unresolved ready source event), fun t => t⟩]

variable [OfEvalError X]

/-- What `resolve` answers, and the calls it makes. -/
lemma resolve_eq (m : Machine T S E C X) (subject : T) (source : S) (event : E)
    (context : Option C) :
    m.resolve subject source event context
      = match m.resolution subject source event context with
        | .target target =>
          (.ok target, Step.calls (m.guardSteps subject source event context) subject)
        | .guardFails e =>
          (.error (OfEvalError.ofEvalError e),
            Step.calls (m.guardSteps subject source event context) subject)
        | .unresolved =>
          (.error (m.unresolved subject source event),
            Step.calls (m.guardSteps subject source event context) subject
              ++ [⟨subject, .unresolved source event (m.unresolved subject source event)⟩]) := by
  have hcandidates := candidates_eq m source event
  rcases Transition.all_ok_or_first_error (fun t => t.answer subject source event context)
      (m.candidates source event) with hok | ⟨earlier, t, later, e, hsplit, hearlier, ht⟩
  · -- no guard fails, and all of them are asked
    obtain ⟨hasked, hfirst⟩ := Transition.asked_of_ok hok
    rw [hcandidates] at hasked hfirst
    have hguards : Step.calls (m.guardSteps subject source event context) subject
        = (m.candidates source event).filterMap
          fun t => t.guardCall? subject source event context := by
      rw [guardSteps, hasked, (Transition.calls_guardSteps _ _ _ _ _).1, hcandidates]
    by_cases hlen : ((m.candidates source event).filter
        fun t => t.passes subject source event context).length = 1
    · obtain ⟨t, ht⟩ := List.length_eq_one_iff.1 hlen
      have hresolution : m.resolution subject source event context = .target t.target := by
        rw [hcandidates] at ht
        simp only [resolution, hfirst, ht]
      rw [hresolution, hguards, resolve_of_unique hok ht]
    · have hresolution : m.resolution subject source event context = .unresolved := by
        rw [hcandidates] at hlen
        simp only [resolution, hfirst]
        split
        · rename_i t ht
          exact absurd (by rw [ht]; rfl) hlen
        · rfl
      rw [hresolution, hguards, resolve_of_not_unique hok hlen]
  · -- the guard of `t` fails, and the later ones are not asked
    have hasked := Transition.asked_of_error hearlier ht later
    rw [← hsplit, hcandidates] at hasked
    obtain ⟨hasked, hfirst⟩ := hasked
    have hresolution : m.resolution subject source event context = .guardFails e := by
      simp only [resolution, hfirst]
    have hguards : Step.calls (m.guardSteps subject source event context) subject
        = (earlier ++ [t]).filterMap fun t => t.guardCall? subject source event context := by
      rw [guardSteps, hasked, (Transition.calls_guardSteps _ _ _ _ _).1]
    rw [hresolution, hguards, resolve_of_error hsplit hearlier ht]

/-- **The protocol of a dispatch.**  If no listener panics, the calls of a dispatch are those
of `protocol`, one for one and in order, each on the subject that the one before it left; the
subject in the end is the one that the last of them leaves, and resolution decides how the
dispatch ends. -/
theorem dispatchFrom_follows_protocol {m : Machine T S E C X} (hm : m.Returns) (subject : T)
    (source : S) (event : E) (context : Option C) :
    let d := m.dispatchFrom subject source event context
    let ready := m.ready subject source event context
    d.calls = Step.calls (m.protocol subject source event context) subject ∧
    d.subject = Step.leave (m.protocol subject source event context) subject ∧
    d.outcome = match m.resolution ready source event context with
      | .target target => .moved target
      | .guardFails e => .failed (OfEvalError.ofEvalError e)
      | .unresolved => .failed (m.unresolved ready source event) := by
  intro d ready
  have hresolve := m.resolve_eq ready source event context
  have hguards : Step.leave (m.guardSteps ready source event context) ready = ready :=
    (Transition.calls_guardSteps _ ready source event context).2
  have hready : Step.leave (m.stepsBefore source event context) subject = ready := rfl
  simp only [protocol]
  cases hresolution : m.resolution ready source event context with
  | target target =>
    rw [hresolution] at hresolve
    have hd : d = _ := dispatchFrom_of_ok hm hresolve
    refine ⟨?_, ?_, by rw [hd]⟩
    · rw [hd, Step.calls_append, Step.calls_append, Step.leave_append, hready, hguards]
    · rw [hd, Step.leave_append, Step.leave_append, hready, hguards]
  | guardFails e =>
    rw [hresolution] at hresolve
    have hd : d = _ := dispatchFrom_of_error hm hresolve
    refine ⟨?_, ?_, by rw [hd]⟩
    · rw [hd, List.append_nil, Step.calls_append, hready]
    · rw [hd, List.append_nil, Step.leave_append, hready, hguards]
  | unresolved =>
    rw [hresolution] at hresolve
    have hd : d = _ := dispatchFrom_of_error hm hresolve
    refine ⟨?_, ?_, by rw [hd]⟩
    · rw [hd, Step.calls_append, Step.calls_append, Step.leave_append, hready, hguards,
        List.append_assoc]
      rfl
    · rw [hd, Step.leave_append, Step.leave_append, hready, hguards]
      rfl

/-- Pushing a shut door: the bell, the guard, the write and the creak. -/
theorem dispatchFrom_follows_protocol_pushed :
    Door.machine.Returns ∧
      (Door.machine.dispatchFrom ⟨Door.shut, false⟩ Door.shut true none).calls.length = 4 ∧
      (Door.machine.dispatchFrom ⟨Door.shut, false⟩ Door.shut true none).subject
        = ⟨Door.opened, true⟩ := by
  have h := dispatchFrom_follows_protocol Door.machine_returns ⟨Door.shut, false⟩ Door.shut true
    none
  refine ⟨Door.machine_returns, ?_, ?_⟩
  · rw [h.1]
    cbv
  · rw [h.2.1]
    cbv

end Machine

end GuardedMachine
