/-
# Dispatches whose listeners may panic

A listener that panics ends the dispatch.  Wherever that happens, what the dispatch has done by
then is what it would have done anyway: either it has not come to its resolution, and has
called listeners only; or its resolution is that of the subject that the phases before it
leave, and a panic can only keep it from answering the target (`dispatchFrom_cases`).

So the guards asked and the reports made are always those of the resolution, or none.  There are
no more guards than candidates, and a report means that every guard has answered and that not
exactly one candidate passes.
-/
import GuardedMachine.Proofs.Dispatch.Protocol

namespace GuardedMachine

variable {T S E C X : Type}

/-! ## Calls that ask and report nothing -/

/-- Calls none of which asks a guard or reports an event. -/
def Call.Quiet (calls : List (Call T S E C X)) : Prop :=
  ∀ call ∈ calls, call.callee.isGuard = false ∧ call.callee.isReport = false

lemma Call.Quiet.filter {calls : List (Call T S E C X)} (h : Quiet calls) :
    calls.filter (fun call => call.callee.isGuard) = [] ∧
      calls.filter (fun call => call.callee.isReport) = [] := by
  constructor
  · rw [List.filter_eq_nil_iff]
    intro call hcall
    simp [(h call hcall).1]
  · rw [List.filter_eq_nil_iff]
    intro call hcall
    simp [(h call hcall).2]

/-- The guards that are asked are those of a first part of the transitions. -/
lemma Transition.asked_prefix (answer : Transition T S E C → Except EvalError Bool)
    (ts : List (Transition T S E C)) : asked answer ts <+: ts := by
  induction ts with
  | nil => exact List.nil_prefix
  | cons t rest ih =>
    rw [asked]
    cases answer t with
    | ok b => exact (List.prefix_cons_inj t).2 ih
    | error e => exact ⟨rest, rfl⟩

namespace Pending

/-- Listeners are quiet, also if one of them panics. -/
lemma quiet_runAll (ps : List (Pending T S E C)) (subject : T) :
    Call.Quiet (runAll ps subject : Progress T S E C X).calls := by
  induction ps generalizing subject with
  | nil =>
    intro call hcall
    cases hcall
  | cons p rest ih =>
    intro call hcall
    cases hrun : p.run subject with
    | finished subject' =>
      simp only [runAll, hrun, List.mem_cons] at hcall
      rcases hcall with rfl | hcall
      · exact ⟨rfl, rfl⟩
      · exact ih subject' call hcall
    | panicked subject' message =>
      simp only [runAll, hrun, List.mem_singleton] at hcall
      rw [hcall]
      exact ⟨rfl, rfl⟩

/-- If no listener has panicked, running them was taking their steps. -/
lemma subject_runAll {ps : List (Pending T S E C)} {subject : T}
    (h : (runAll ps subject : Progress T S E C X).panic = none) :
    (runAll ps subject : Progress T S E C X).subject
      = Step.leave (ps.map (toStep (X := X))) subject := by
  induction ps generalizing subject with
  | nil => rfl
  | cons p rest ih =>
    cases hrun : p.run subject with
    | finished subject' =>
      simp only [runAll, hrun] at h
      simp only [runAll, hrun, List.map_cons, Step.leave_cons, toStep, Effect.subject]
      exact ih h
    | panicked subject' message =>
      simp only [runAll, hrun] at h
      cases h

end Pending

namespace Machine

variable [Descriptor S] [DecidableEq E]

/-- If no listener has panicked before resolution, it is given the subject that is ready. -/
lemma subject_runAll_before (m : Machine T S E C X) (subject : T) (source : S) (event : E)
    (context : Option C)
    (h : (Pending.runAll ((momentsBefore source event context).flatMap m.due) subject :
      Progress T S E C X).panic = none) :
    (Pending.runAll ((momentsBefore source event context).flatMap m.due) subject :
      Progress T S E C X).subject = m.ready subject source event context := by
  have hphases : ((momentsBefore source event context).flatMap m.due).map
      (Pending.toStep (X := X)) = m.stepsBefore source event context := by
    rw [List.map_flatMap, ← flatMap_momentsBefore]
    simp only [map_toStep_due]
  rw [Pending.subject_runAll h, hphases]
  rfl

variable [HasFields T] [HasFields C] [OfEvalError X]

/-- What a dispatch can come to: a panic before its resolution; the error of its resolution; or
the target of its resolution, and possibly a panic after it. -/
lemma dispatchFrom_cases (m : Machine T S E C X) (subject : T) (source : S) (event : E)
    (context : Option C) :
    let d := m.dispatchFrom subject source event context
    let r := m.resolve (m.ready subject source event context) source event context
    (Call.Quiet d.calls ∧ ∃ message, d.outcome = .panicked message) ∨
    (∃ before error, d.calls = before ++ r.2 ∧ Call.Quiet before ∧
      r.1 = .error error ∧ d.outcome = .failed error) ∨
    (∃ before after target, d.calls = before ++ r.2 ++ after ∧ Call.Quiet before ∧
      Call.Quiet after ∧ r.1 = .ok target ∧
      (d.outcome = .moved target ∨ ∃ message, d.outcome = .panicked message)) := by
  intro d r
  have hquiet : Call.Quiet (Pending.runAll (X := X)
      ((momentsBefore source event context).flatMap m.due) subject).calls :=
    Pending.quiet_runAll _ _
  have hready := subject_runAll_before m subject source event context
  rcases hbefore : Pending.runAll (X := X)
    ((momentsBefore source event context).flatMap m.due) subject with ⟨left, before, panic⟩
  rw [hbefore] at hquiet hready
  cases panic with
  | some message =>
    -- a listener has panicked before resolution
    have hd : d = ⟨left, before, .panicked message⟩ := by
      simp only [d, dispatchFrom, hbefore]
    exact Or.inl ⟨by rw [hd]; exact hquiet, message, by rw [hd]⟩
  | none =>
    -- resolution takes place, on the subject that is ready
    obtain rfl : left = m.ready subject source event context := hready rfl
    rcases hr : r with ⟨error | target, weighed⟩
    · change m.resolve _ source event context = _ at hr
      have hd : d = ⟨m.ready subject source event context, before ++ weighed, .failed error⟩ := by
        simp only [d, dispatchFrom, hbefore, hr]
      exact Or.inr (Or.inl ⟨before, error, by rw [hd], hquiet, rfl, by rw [hd]⟩)
    · change m.resolve _ source event context = _ at hr
      have hlater : Call.Quiet (Pending.runAll (X := X)
          ((momentsAfter source event target context).flatMap m.due)
          (m.accessor.set (m.ready subject source event context) target)).calls :=
        Pending.quiet_runAll _ _
      rcases hafter : Pending.runAll (X := X)
          ((momentsAfter source event target context).flatMap m.due)
          (m.accessor.set (m.ready subject source event context) target)
        with ⟨final, after, panic⟩
      rw [hafter] at hlater
      have hcalls : d.calls = before ++ weighed
          ++ ⟨m.ready subject source event context, .write target⟩ :: after := by
        simp only [d, dispatchFrom, hbefore, hr, hafter]
      have houtcome : d.outcome = .moved target ∨ ∃ message, d.outcome = .panicked message := by
        cases panic with
        | none =>
          left
          simp only [d, dispatchFrom, hbefore, hr, hafter]
        | some message =>
          right
          exact ⟨message, by simp only [d, dispatchFrom, hbefore, hr, hafter]⟩
      have hwrite : Call.Quiet (⟨m.ready subject source event context, .write target⟩ :: after) :=
        List.forall_mem_cons.2 ⟨⟨rfl, rfl⟩, hlater⟩
      exact Or.inr (Or.inr ⟨before, _, target, hcalls, hquiet, hwrite, rfl, houtcome⟩)

/-! ## Guards asked and reports made -/

omit [OfEvalError X] in
/-- No more guards are asked than there are candidates. -/
lemma length_guardSteps_le (m : Machine T S E C X) (subject : T) (source : S) (event : E)
    (context : Option C) :
    (m.guardSteps subject source event context).length ≤ (m.candidates source event).length := by
  rw [candidates_eq]
  refine Nat.le_trans (List.length_filterMap_le _ _) ?_
  exact (Transition.asked_prefix _ _).length_le

lemma length_filter_isGuard_resolve_le (m : Machine T S E C X) (subject : T) (source : S)
    (event : E) (context : Option C) :
    ((m.resolve subject source event context).2.filter fun call => call.callee.isGuard).length
      ≤ (m.candidates source event).length := by
  have hguards : (Step.calls (m.guardSteps subject source event context) subject).length
      ≤ (m.candidates source event).length := by
    rw [Step.length_calls]
    exact m.length_guardSteps_le subject source event context
  rw [resolve_eq]
  cases m.resolution subject source event context with
  | target target => exact Nat.le_trans (List.length_filter_le _ _) hguards
  | guardFails e => exact Nat.le_trans (List.length_filter_le _ _) hguards
  | unresolved =>
    rw [List.filter_append, List.length_append]
    exact Nat.le_trans (Nat.add_le_add_right (List.length_filter_le _ _) _) hguards

/-- The event is reported only if every guard answers and not exactly one candidate passes. -/
lemma of_mem_resolve_of_isReport {m : Machine T S E C X} {subject : T} {source : S} {event : E}
    {context : Option C} {call : Call T S E C X}
    (hcall : call ∈ (m.resolve subject source event context).2)
    (hreport : call.callee.isReport = true) :
    call.subject = subject ∧
    (∀ t ∈ m.candidates source event, ∃ b, t.answer subject source event context = .ok b) ∧
    ((m.candidates source event).filter
      fun t => t.passes subject source event context).length ≠ 1 := by
  have not_guard {ts : List (Transition T S E C)} (h : call ∈ ts.filterMap fun t =>
      t.guardCall? subject source event context) : False := by
    have hnil := filter_isReport_guardCalls (X := X) ts subject source event context
    rw [List.filter_eq_nil_iff] at hnil
    exact hnil call h hreport
  rcases Transition.all_ok_or_first_error (fun t => t.answer subject source event context)
      (m.candidates source event) with hok | ⟨earlier, t, later, e, hsplit, hearlier, ht⟩
  · by_cases hlen : ((m.candidates source event).filter
        fun t => t.passes subject source event context).length = 1
    · obtain ⟨t, ht⟩ := List.length_eq_one_iff.1 hlen
      rw [resolve_of_unique hok ht] at hcall
      exact (not_guard hcall).elim
    · rw [resolve_of_not_unique hok hlen] at hcall
      rcases List.mem_append.1 hcall with hcall | hcall
      · exact (not_guard hcall).elim
      · rw [List.mem_singleton.1 hcall]
        exact ⟨rfl, hok, hlen⟩
  · rw [resolve_of_error hsplit hearlier ht] at hcall
    exact (not_guard hcall).elim

/-- A dispatch asks no more guards than there are candidates. -/
lemma length_filter_isGuard_dispatchFrom_le (m : Machine T S E C X) (subject : T) (source : S)
    (event : E) (context : Option C) :
    ((m.dispatchFrom subject source event context).calls.filter
      fun call => call.callee.isGuard).length ≤ (m.candidates source event).length := by
  have hresolve := m.length_filter_isGuard_resolve_le (m.ready subject source event context)
    source event context
  rcases m.dispatchFrom_cases subject source event context with
    ⟨hquiet, -⟩ | ⟨before, error, hcalls, hbefore, -⟩ |
      ⟨before, after, target, hcalls, hbefore, hafter, -⟩
  · rw [hquiet.filter.1]
    exact Nat.zero_le _
  · rw [hcalls, List.filter_append, hbefore.filter.1]
    exact hresolve
  · rw [hcalls, List.filter_append, List.filter_append, hbefore.filter.1, hafter.filter.1,
      List.append_nil]
    exact hresolve

/-- A report that a dispatch makes is about the subject that is ready for resolution; it means
that every guard answers and that not exactly one candidate passes. -/
lemma of_mem_dispatchFrom_of_isReport {m : Machine T S E C X} {subject : T} {source : S}
    {event : E} {context : Option C} {call : Call T S E C X}
    (hcall : call ∈ (m.dispatchFrom subject source event context).calls)
    (hreport : call.callee.isReport = true) :
    call.subject = m.ready subject source event context ∧
    (∀ t ∈ m.candidates source event, ∃ b, t.answer call.subject source event context = .ok b) ∧
    ((m.candidates source event).filter
      fun t => t.passes call.subject source event context).length ≠ 1 := by
  have not_quiet {calls : List (Call T S E C X)} (hquiet : Call.Quiet calls)
      (h : call ∈ calls) : False := by
    have hnot := (hquiet call h).2
    rw [hreport] at hnot
    cases hnot
  have hresolve : call ∈ (m.resolve (m.ready subject source event context) source event
      context).2 := by
    rcases m.dispatchFrom_cases subject source event context with
      ⟨hquiet, -⟩ | ⟨before, error, hcalls, hbefore, -⟩ |
        ⟨before, after, target, hcalls, hbefore, hafter, -⟩
    · exact (not_quiet hquiet hcall).elim
    · rw [hcalls, List.mem_append] at hcall
      exact hcall.resolve_left (not_quiet hbefore)
    · rw [hcalls, List.mem_append, List.mem_append] at hcall
      exact (hcall.resolve_right (not_quiet hafter)).resolve_left (not_quiet hbefore)
  obtain ⟨hsubject, hrest⟩ := of_mem_resolve_of_isReport hresolve hreport
  rw [hsubject]
  exact ⟨rfl, hrest⟩

/-! ## Outcomes -/

/-- If one candidate alone passes, a dispatch that returns moves to its target. -/
lemma outcome_of_unique {m : Machine T S E C X} {subject : T} {source : S} {event : E}
    {context : Option C} {t : Transition T S E C}
    (hok : ∀ u ∈ m.candidates source event,
      ∃ b, u.answer (m.ready subject source event context) source event context = .ok b)
    (ht : (m.candidates source event).filter
      (fun u => u.passes (m.ready subject source event context) source event context) = [t]) :
    (∃ message, (m.dispatchFrom subject source event context).outcome = .panicked message) ∨
      (m.dispatchFrom subject source event context).outcome = .moved t.target := by
  have hresolve := resolve_of_unique hok ht
  rcases m.dispatchFrom_cases subject source event context with
    ⟨-, hpanic⟩ | ⟨before, error, -, -, hanswer, -⟩ |
      ⟨before, after, target, -, -, -, hanswer, houtcome⟩
  · exact Or.inl hpanic
  · rw [hresolve] at hanswer
    cases hanswer
  · rw [hresolve] at hanswer
    cases hanswer
    exact houtcome.symm

/-- If the guard of the first candidate fails, a dispatch that returns gives its error. -/
lemma outcome_of_first_error {m : Machine T S E C X} {subject : T} {source : S} {event : E}
    {context : Option C} {t : Transition T S E C} {later : List (Transition T S E C)}
    {e : EvalError} (hcandidates : m.candidates source event = t :: later)
    (ht : t.answer (m.ready subject source event context) source event context = .error e) :
    (∃ message, (m.dispatchFrom subject source event context).outcome = .panicked message) ∨
      (m.dispatchFrom subject source event context).outcome
        = .failed (OfEvalError.ofEvalError e) := by
  have hsplit : m.candidates source event = [] ++ t :: later := hcandidates
  have hresolve := resolve_of_error hsplit (by simp) ht
  rcases m.dispatchFrom_cases subject source event context with
    ⟨-, hpanic⟩ | ⟨before, error, -, -, hanswer, houtcome⟩ |
      ⟨before, after, target, -, -, -, hanswer, -⟩
  · exact Or.inl hpanic
  · rw [hresolve] at hanswer
    cases hanswer
    exact Or.inr houtcome
  · rw [hresolve] at hanswer
    cases hanswer

end Machine

end GuardedMachine
