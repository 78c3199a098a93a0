/-
# Resolution

Resolution goes through the table of transitions in the order of their registration and asks
each whether it can be taken.  That is to go through the candidates for the event in the state
only (`weigh_candidates`).  This file says what it comes to without the loop: the guard of a
candidate has an answer, which depends on nothing but the subject, the state, the event and the
context, and

* the first candidate whose guard fails decides, whatever the candidates before it answered;
* if no guard fails, the only candidate that passes decides;
* if no guard fails and not exactly one candidate passes, the event is reported as unresolved.

The guards are asked in order, each once, and none after the first that fails.
-/
import GuardedMachine.Proofs.Dispatch.Phases

namespace GuardedMachine

variable {T S E C X : Type}

namespace Transition

variable [HasFields T] [HasFields C]

/-- What the guard of a transition answers: a transition without a guard passes, a test is
given the dispatched state, and only guard text can fail. -/
def answer (t : Transition T S E C) (subject : T) (source : S) (event : E)
    (context : Option C) : Except EvalError Bool :=
  match t.guard with
  | none => .ok true
  | some .always => .ok true
  | some (.predicate _ test) => .ok (test subject source event context)
  | some (.text statement) => (statement.holds ⟨some subject, context⟩).result

/-- Whether the guard of a transition answers yes. -/
def passes (t : Transition T S E C) (subject : T) (source : S) (event : E)
    (context : Option C) : Bool :=
  match t.answer subject source event context with
  | .ok answer => answer
  | .error _ => false

/-- The call of the guard of a transition, if it has one. -/
def guardCall? (t : Transition T S E C) (subject : T) (source : S) (event : E)
    (context : Option C) : Option (Call T S E C X) :=
  t.guard.map fun g =>
    ⟨subject, .guard g source event context (g.evaluate subject source event context).resolved⟩

lemma verdict_result (t : Transition T S E C) (subject : T) (source : S) (event : E)
    (context : Option C) :
    (t.verdict subject source event context).result = t.answer subject source event context := by
  obtain ⟨_, _, _, guard⟩ := t
  rcases guard with _ | _ | _ | _ <;> rfl

lemma toList_guardCall? (t : Transition T S E C) (subject : T) (source : S) (event : E)
    (context : Option C) :
    (t.guard.toList.map fun g => (⟨subject, .guard g source event context
        (t.verdict subject source event context).resolved⟩ : Call T S E C X))
      = (t.guardCall? subject source event context).toList := by
  obtain ⟨_, _, _, guard⟩ := t
  cases guard <;> rfl

/-- A guard that fails is guard text. -/
lemma exists_text_of_answer_error {t : Transition T S E C} {subject : T} {source : S} {event : E}
    {context : Option C} {e : EvalError} (h : t.answer subject source event context = .error e) :
    ∃ statement, t.guard = some (.text statement) := by
  obtain ⟨_, _, _, guard⟩ := t
  rcases guard with _ | _ | _ | statement
  · cases h
  · cases h
  · cases h
  · exact ⟨statement, rfl⟩

end Transition

/-- Whether a guard is called. -/
def Callee.isGuard : Callee T S E C X → Bool
  | .guard .. => true
  | _ => false

/-- Whether an unresolved event is reported. -/
def Callee.isReport : Callee T S E C X → Bool
  | .unresolved .. => true
  | _ => false

namespace Machine

section Weigh

variable [HasFields T] [HasFields C]

/-! ## The calls of a kind -/

lemma filter_isGuard_guardCalls (ts : List (Transition T S E C)) (subject : T) (source : S)
    (event : E) (context : Option C) :
    (ts.filterMap fun t => (t.guardCall? subject source event context :
        Option (Call T S E C X))).filter (fun call => call.callee.isGuard)
      = ts.filterMap fun t => t.guardCall? subject source event context := by
  rw [List.filter_eq_self]
  intro call hcall
  obtain ⟨t, -, ht⟩ := List.mem_filterMap.1 hcall
  obtain ⟨g, -, rfl⟩ := Option.map_eq_some_iff.1 ht
  rfl

lemma filter_isReport_guardCalls (ts : List (Transition T S E C)) (subject : T) (source : S)
    (event : E) (context : Option C) :
    (ts.filterMap fun t => (t.guardCall? subject source event context :
        Option (Call T S E C X))).filter (fun call => call.callee.isReport) = [] := by
  rw [List.filter_eq_nil_iff]
  intro call hcall
  obtain ⟨t, -, ht⟩ := List.mem_filterMap.1 hcall
  obtain ⟨g, -, rfl⟩ := Option.map_eq_some_iff.1 ht
  simp [Callee.isReport]

/-! ## The loop over the table -/

variable [Descriptor S] [DecidableEq E]

/-- A transition that does not apply is passed over. -/
lemma weigh_cons_of_not_appliesTo {subject : T} {source : S} {event : E} {context : Option C}
    {t : Transition T S E C} (h : t.appliesTo source event = false)
    (rest : List (Transition T S E C)) :
    (weigh subject source event context (t :: rest) :
        Except EvalError (List S) × List (Call T S E C X))
      = weigh subject source event context rest := by
  have hfire : t.canFire subject source event context = pure false := by
    rw [Transition.canFire, h]
    rfl
  simp only [weigh, hfire, h]
  rcases weigh subject source event context rest with ⟨error | targets, calls⟩ <;> rfl

/-- Of a transition that applies, the guard is asked. -/
lemma weigh_cons_of_appliesTo {subject : T} {source : S} {event : E} {context : Option C}
    {t : Transition T S E C} (h : t.appliesTo source event = true)
    (rest : List (Transition T S E C)) :
    (weigh subject source event context (t :: rest) :
        Except EvalError (List S) × List (Call T S E C X))
      = match t.answer subject source event context with
        | .error e => (.error e, (t.guardCall? subject source event context).toList)
        | .ok passes =>
          let (targets, more) := weigh subject source event context rest
          (targets.map fun ts => if passes then t.target :: ts else ts,
            (t.guardCall? subject source event context).toList ++ more) := by
  have hfire : t.canFire subject source event context
      = t.verdict subject source event context := by
    rw [Transition.canFire, if_pos h]
  rcases hanswer : t.answer subject source event context with error | passes <;>
    simp only [weigh, hfire, if_pos h, t.verdict_result, t.toList_guardCall?, hanswer]

/-- To go through a table is to go through the transitions of it that apply. -/
lemma weigh_filter_appliesTo (subject : T) (source : S) (event : E) (context : Option C)
    (table : List (Transition T S E C)) :
    (weigh subject source event context (table.filter fun t => t.appliesTo source event) :
        Except EvalError (List S) × List (Call T S E C X))
      = weigh subject source event context table := by
  induction table with
  | nil => rfl
  | cons t rest ih =>
    cases h : t.appliesTo source event with
    | false => rw [List.filter_cons_of_neg (by simp [h]), ih, weigh_cons_of_not_appliesTo h]
    | true =>
      rw [List.filter_cons_of_pos (by simp [h]), weigh_cons_of_appliesTo h,
        weigh_cons_of_appliesTo h, ih]

/-- As long as no guard fails, the targets of the candidates that pass are collected. -/
lemma weigh_of_ok {subject : T} {source : S} {event : E} {context : Option C}
    {ts : List (Transition T S E C)} (happlies : ∀ t ∈ ts, t.appliesTo source event = true)
    (h : ∀ t ∈ ts, ∃ b, t.answer subject source event context = .ok b) :
    (weigh subject source event context ts :
        Except EvalError (List S) × List (Call T S E C X))
      = (.ok ((ts.filter fun t => t.passes subject source event context).map Transition.target),
          ts.filterMap fun t => t.guardCall? subject source event context) := by
  induction ts with
  | nil => rfl
  | cons t rest ih =>
    obtain ⟨b, hb⟩ := h t (by simp)
    have hrest := ih (fun u hu => happlies u (by simp [hu])) fun u hu => h u (by simp [hu])
    have hpasses : t.passes subject source event context = b := by simp [Transition.passes, hb]
    simp only [weigh_cons_of_appliesTo (happlies t (by simp)), hb, hrest, Except.map,
      List.filter_cons, hpasses, List.filterMap_cons]
    cases b <;> cases (t.guardCall? subject source event context : Option (Call T S E C X)) <;> rfl

/-- The first guard that fails is the last one that is asked. -/
lemma weigh_of_error {subject : T} {source : S} {event : E} {context : Option C}
    {earlier later : List (Transition T S E C)} {t : Transition T S E C} {e : EvalError}
    (happlies : ∀ u ∈ earlier ++ t :: later, u.appliesTo source event = true)
    (hearlier : ∀ u ∈ earlier, ∃ b, u.answer subject source event context = .ok b)
    (ht : t.answer subject source event context = .error e) :
    (weigh subject source event context (earlier ++ t :: later) :
        Except EvalError (List S) × List (Call T S E C X))
      = (.error e,
          (earlier ++ [t]).filterMap fun t => t.guardCall? subject source event context) := by
  induction earlier with
  | nil =>
    simp only [List.nil_append, weigh_cons_of_appliesTo (happlies t (by simp)), ht,
      List.filterMap_cons, List.filterMap_nil]
    cases (t.guardCall? subject source event context : Option (Call T S E C X)) <;> rfl
  | cons u rest ih =>
    obtain ⟨b, hb⟩ := hearlier u (by simp)
    have hrest := ih (fun v hv => happlies v (List.mem_cons_of_mem u hv))
      fun v hv => hearlier v (by simp [hv])
    simp only [List.cons_append, weigh_cons_of_appliesTo (happlies u (by simp)), hb, hrest,
      Except.map, List.filterMap_cons]
    cases (u.guardCall? subject source event context : Option (Call T S E C X)) <;> rfl

end Weigh

variable [Descriptor S] [DecidableEq E]

lemma candidates_eq (m : Machine T S E C X) (source : S) (event : E) :
    m.candidates source event
      = m.transitions.filter fun t => t.event = event ∧ overlaps t.source source := by
  simp [candidates, Transition.appliesTo]

lemma appliesTo_of_mem_candidates {m : Machine T S E C X} {source : S} {event : E}
    {t : Transition T S E C} (h : t ∈ m.candidates source event) :
    t.appliesTo source event = true :=
  (List.mem_filter.1 h).2

/-- No guard is asked and nothing is reported before resolution. -/
lemma filter_calls_stepsBefore (m : Machine T S E C X) (subject : T) (source : S) (event : E)
    (context : Option C) :
    (Step.calls (m.stepsBefore source event context) subject).filter
        (fun call => call.callee.isGuard) = [] ∧
      (Step.calls (m.stepsBefore source event context) subject).filter
        (fun call => call.callee.isReport) = [] := by
  constructor <;>
    · refine Step.filter_calls_eq_nil (fun step hstep => ?_) subject
      obtain ⟨name, moment, heq⟩ := exists_listener_of_mem_stepsBefore hstep
      rw [heq]
      rfl

/-- No guard is asked and nothing is reported once there is a target. -/
lemma filter_calls_stepsAfter (m : Machine T S E C X) (subject : T) (source : S) (event : E)
    (target : S) (context : Option C) :
    (Step.calls (m.stepsAfter source event target context) subject).filter
        (fun call => call.callee.isGuard) = [] ∧
      (Step.calls (m.stepsAfter source event target context) subject).filter
        (fun call => call.callee.isReport) = [] := by
  constructor <;>
    · refine Step.filter_calls_eq_nil (fun step hstep => ?_) subject
      rcases eq_write_or_listener_of_mem_stepsAfter hstep with heq | ⟨name, moment, heq⟩ <;>
        · rw [heq]
          rfl

variable [HasFields T] [HasFields C]

/-- The loop over the table decides by the candidates. -/
lemma weigh_candidates (m : Machine T S E C X) (subject : T) (source : S) (event : E)
    (context : Option C) :
    (weigh subject source event context m.transitions :
        Except EvalError (List S) × List (Call T S E C X))
      = weigh subject source event context (m.candidates source event) :=
  (weigh_filter_appliesTo subject source event context m.transitions).symm

variable [OfEvalError X]

/-- A guard that fails gives its error. -/
lemma resolve_of_error {m : Machine T S E C X} {subject : T} {source : S} {event : E}
    {context : Option C} {earlier later : List (Transition T S E C)} {t : Transition T S E C}
    {e : EvalError} (hc : m.candidates source event = earlier ++ t :: later)
    (hearlier : ∀ u ∈ earlier, ∃ b, u.answer subject source event context = .ok b)
    (ht : t.answer subject source event context = .error e) :
    m.resolve subject source event context
      = (.error (OfEvalError.ofEvalError e),
          (earlier ++ [t]).filterMap fun t => t.guardCall? subject source event context) := by
  have happlies : ∀ u ∈ earlier ++ t :: later, u.appliesTo source event = true :=
    fun u hu => appliesTo_of_mem_candidates (hc ▸ hu)
  simp only [resolve, weigh_candidates, hc, weigh_of_error happlies hearlier ht]

/-- The only candidate that passes gives its target. -/
lemma resolve_of_unique {m : Machine T S E C X} {subject : T} {source : S} {event : E}
    {context : Option C} {t : Transition T S E C}
    (h : ∀ t ∈ m.candidates source event, ∃ b, t.answer subject source event context = .ok b)
    (ht : (m.candidates source event).filter (fun t => t.passes subject source event context)
      = [t]) :
    m.resolve subject source event context
      = (.ok t.target, (m.candidates source event).filterMap
          fun t => t.guardCall? subject source event context) := by
  simp only [resolve, weigh_candidates, weigh_of_ok (fun _ => appliesTo_of_mem_candidates) h, ht,
    List.map_cons, List.map_nil]

/-- If not exactly one candidate passes, the event is reported. -/
lemma resolve_of_not_unique {m : Machine T S E C X} {subject : T} {source : S} {event : E}
    {context : Option C}
    (h : ∀ t ∈ m.candidates source event, ∃ b, t.answer subject source event context = .ok b)
    (hlen : ((m.candidates source event).filter
      fun t => t.passes subject source event context).length ≠ 1) :
    m.resolve subject source event context
      = (.error (m.unresolved subject source event),
          ((m.candidates source event).filterMap
              fun t => t.guardCall? subject source event context)
            ++ [⟨subject, .unresolved source event (m.unresolved subject source event)⟩]) := by
  simp only [resolve, weigh_candidates, weigh_of_ok (fun _ => appliesTo_of_mem_candidates) h]
  rcases hp : (m.candidates source event).filter
      (fun t => t.passes subject source event context) with _ | ⟨t, _ | ⟨u, rest⟩⟩
  · rw [hp]
    rfl
  · simp [hp] at hlen
  · rw [hp]
    rfl

/-- The guards asked and the reports made in a dispatch are those of its resolution. -/
lemma filter_calls_dispatchFrom {m : Machine T S E C X} (hm : m.Returns) (subject : T) (source : S)
    (event : E) (context : Option C) :
    let calls := (m.dispatchFrom subject source event context).calls
    let weighed :=
      (m.resolve (m.ready subject source event context) source event context).2
    calls.filter (fun call => call.callee.isGuard)
        = weighed.filter (fun call => call.callee.isGuard) ∧
      calls.filter (fun call => call.callee.isReport)
        = weighed.filter (fun call => call.callee.isReport) := by
  intro calls weighed
  obtain ⟨guardsBefore, reportsBefore⟩ := filter_calls_stepsBefore m subject source event context
  rcases hresolve : m.resolve (m.ready subject source event context) source event context
    with ⟨error | target, made⟩
  · have hcalls : calls = _ := congrArg Dispatch.calls (dispatchFrom_of_error hm hresolve)
    have hweighed : weighed = made := congrArg Prod.snd hresolve
    simp only [hcalls, hweighed, List.filter_append, guardsBefore, reportsBefore, List.nil_append,
      and_self]
  · obtain ⟨guardsAfter, reportsAfter⟩ := filter_calls_stepsAfter m
      (m.ready subject source event context) source event target context
    have hcalls : calls = _ := congrArg Dispatch.calls (dispatchFrom_of_ok hm hresolve)
    have hweighed : weighed = made := congrArg Prod.snd hresolve
    simp only [hcalls, hweighed, List.filter_append, guardsBefore, reportsBefore, guardsAfter,
      reportsAfter, List.nil_append, List.append_nil, and_self]

/-! ## The outcome -/

/-- **Resolution is exact.**  The candidates are the transitions for the event whose source
overlaps the dispatched state, and their guards are asked about the subject that the phases
before resolution leave.  If the guard text of one of them fails, the first such failure is the
outcome, and no guard after it is asked.  Otherwise every candidate's guard is asked once, in
order, and the dispatch moves to the target of the only one that passes; if there is no such
one, the outcome is what the report of the unresolved event gives, which is made once. -/
theorem dispatchFrom_resolves_exactly {m : Machine T S E C X} (hm : m.Returns) (subject : T)
    (source : S) (event : E) (context : Option C) :
    let d := m.dispatchFrom subject source event context
    let ready := m.ready subject source event context
    let candidates := m.transitions.filter fun t => t.event = event ∧ overlaps t.source source
    let answer := fun t : Transition T S E C => t.answer ready source event context
    let passing := candidates.filter fun t => t.passes ready source event context
    let guardCalls := fun ts : List (Transition T S E C) =>
      ts.filterMap fun t => t.guardCall? ready source event context
    let asked := d.calls.filter fun call => call.callee.isGuard
    let reports := d.calls.filter fun call => call.callee.isReport
    (∀ earlier t later e, candidates = earlier ++ t :: later →
      (∀ u ∈ earlier, ∃ b, answer u = .ok b) → answer t = .error e →
        (∃ statement, t.guard = some (.text statement)) ∧
        d.outcome = .failed (OfEvalError.ofEvalError e) ∧
        asked = guardCalls (earlier ++ [t]) ∧ reports = []) ∧
    ((∀ t ∈ candidates, ∃ b, answer t = .ok b) →
      asked = guardCalls candidates ∧
      (∀ target, d.outcome = .moved target ↔ ∃ t, passing = [t] ∧ t.target = target) ∧
      (passing.length = 1 → reports = []) ∧
      (passing.length ≠ 1 →
        d.outcome = .failed (m.unresolved ready source event) ∧
        reports = [⟨ready, .unresolved source event (m.unresolved ready source event)⟩])) := by
  intro d ready candidates answer passing guardCalls asked reports
  have hcandidates : m.candidates source event = candidates := candidates_eq m source event
  obtain ⟨hasked, hreports⟩ := filter_calls_dispatchFrom hm subject source event context
  constructor
  · -- the guard of some candidate fails
    intro earlier t later e hsplit hearlier ht
    have hresolve := resolve_of_error (hcandidates.trans hsplit) hearlier ht
    rw [hresolve] at hasked hreports
    refine ⟨Transition.exists_text_of_answer_error ht, ?_, ?_, ?_⟩
    · exact congrArg Dispatch.outcome (dispatchFrom_of_error hm hresolve)
    · exact hasked.trans (filter_isGuard_guardCalls _ _ _ _ _)
    · exact hreports.trans (filter_isReport_guardCalls _ _ _ _ _)
  · intro hok
    rw [← hcandidates] at hok
    by_cases hlen : passing.length = 1
    · -- exactly one candidate passes
      obtain ⟨t, ht⟩ := List.length_eq_one_iff.1 hlen
      have hresolve := resolve_of_unique hok (by rw [hcandidates]; exact ht)
      have houtcome : d.outcome = .moved t.target :=
        congrArg Dispatch.outcome (dispatchFrom_of_ok hm hresolve)
      rw [hresolve] at hasked hreports
      refine ⟨?_, fun target => ?_, fun _ => ?_, fun h => absurd hlen h⟩
      · rw [← hcandidates]
        exact hasked.trans (filter_isGuard_guardCalls _ _ _ _ _)
      · simp [houtcome, ht]
      · exact hreports.trans (filter_isReport_guardCalls _ _ _ _ _)
    · -- none or several pass
      have hresolve := resolve_of_not_unique hok (by rw [hcandidates]; exact hlen)
      have houtcome : d.outcome = .failed (m.unresolved ready source event) :=
        congrArg Dispatch.outcome (dispatchFrom_of_error hm hresolve)
      rw [hresolve, List.filter_append, filter_isGuard_guardCalls] at hasked
      rw [hresolve, List.filter_append, filter_isReport_guardCalls] at hreports
      refine ⟨?_, fun target => ?_, fun h => absurd h hlen, fun _ => ⟨houtcome, hreports⟩⟩
      · rw [← hcandidates]
        exact hasked.trans (List.append_nil _)
      · constructor
        · intro h
          cases houtcome.symm.trans h
        · rintro ⟨t, ht, -⟩
          exact absurd (congrArg List.length ht) hlen

/-- Pulling an open door: the guard of the second candidate fails after the first has passed. -/
theorem dispatchFrom_resolves_exactly_pulled :
    Door.machine.Returns ∧
      (Door.machine.dispatchFrom ⟨Door.opened, false⟩ Door.opened false none).outcome
        = .failed (.notBoolean .null) := by
  refine ⟨Door.machine_returns, ?_⟩
  have h := (dispatchFrom_resolves_exactly Door.machine_returns ⟨Door.opened, false⟩ Door.opened
    false none).1 [⟨⟨#v[none]⟩, false, Door.shut, none⟩]
    ⟨Door.opened, false, Door.shut, some (.text ⟨"#.owner;", .path ⟨.subject, ["owner"]⟩⟩)⟩ []
    (.notBoolean .null) (by cbv)
  exact (h (by simp [Transition.answer]) rfl).2.1

end Machine

end GuardedMachine
