/-
# The order of registrations

The draft of a machine after a sequence of steps has a closed form (`ofRegistrations_eq_ok_iff`):
the accessor and the report that were set last, all transitions and all listeners, each in the
order of their steps.  A step is rejected because of what it adds, not because of the steps before.

So steps for different parts of the machine can be taken in any order
(`ofRegistrations_of_sameParts`).  The only part in which they mix is the list of listeners, and
there a dispatch sees of the order only how listeners with the same binding follow each other.
-/
import GuardedMachine.Machine.Draft
import GuardedMachine.Proofs.Dispatch.Bindings
import GuardedMachine.Proofs.Dispatch.Table

namespace GuardedMachine

variable {T S E C X : Type}

/-! ## What a step adds -/

namespace Registration

/-- The accessor that a step sets. -/
def access? : Registration T S E C X → Option (Accessor T S)
  | .accessor a => some a
  | _ => none

/-- The report that a step sets. -/
def report? : Registration T S E C X → Option (T → S → E → X)
  | .unresolved report => some report
  | _ => none

/-- The listener that a step adds. -/
def listener? : Registration T S E C X → Option (Listener T S E C)
  | .listener l => some l
  | _ => none

/-- Whether a step is to add transitions. -/
def isTransition : Registration T S E C X → Bool
  | .transition _ | .transitions _ | .textTransition _ _ _ _ | .draft _ => true
  | _ => false

/-- The transitions that a step adds. -/
def added : Registration T S E C X → List (Transition T S E C)
  | .transition t => [t]
  | .transitions ts => ts
  | .textTransition source event target text =>
    (Transition.whenText source event target text).toOption.toList
  | .draft d => d.build.toOption.toList
  | _ => []

/-- The reason to reject a step, if there is one. -/
def rejection? [Descriptor S] : Registration T S E C X → Option (Rejection S)
  | .textTransition source event target text =>
    match Transition.whenText (T := T) (C := C) source event target text with
    | .ok _ => none
    | .error e => some (.guard (.invalidGuard e))
  | .draft d =>
    match d.build with
    | .ok _ => none
    | .error es => some (.transition es)
  | .listener l => l.rejection?.map .listener
  | _ => none

lemma listener?_eq_some_iff {r : Registration T S E C X} {l : Listener T S E C} :
    r.listener? = some l ↔ r = .listener l := by
  cases r <;> simp [listener?]

lemma added_eq_nil {r : Registration T S E C X} (h : r.isTransition = false) : r.added = [] := by
  cases r <;> first | rfl | cases h

/-- Transitions are added by the steps that are to add some. -/
lemma flatMap_added_filter (rs : List (Registration T S E C X)) :
    (rs.filter isTransition).flatMap added = rs.flatMap added := by
  induction rs with
  | nil => rfl
  | cons r rest ih =>
    rw [List.filter_cons, List.flatMap_cons]
    cases h : r.isTransition with
    | true => rw [if_pos rfl, List.flatMap_cons, ih]
    | false => rw [if_neg Bool.false_ne_true, ih, added_eq_nil h, List.nil_append]

end Registration

/-! ## The draft after a sequence of steps -/

/-- The last value in a list is that of the rest, if it has one. -/
lemma getLast?_filterMap_cons {α β : Type} (f : α → Option β) (a : α) (as : List α) :
    ((a :: as).filterMap f).getLast? = (as.filterMap f).getLast?.or (f a) := by
  rw [List.filterMap_cons]
  cases f a with
  | none => rw [Option.or_none]
  | some b =>
    simp only [List.getLast?_cons]
    cases (as.filterMap f).getLast? <;> rfl

namespace MachineDraft

open Registration

/-- The draft with what a step adds to it. -/
def extend (d : MachineDraft T S E C X) (r : Registration T S E C X) : MachineDraft T S E C X :=
  ⟨r.access?.or d.accessor?, r.report?.or d.unresolved?, d.transitions ++ r.added,
    d.listeners ++ r.listener?.toList⟩

/-- What a sequence of steps sets last, and all that it adds, in order. -/
def collect (rs : List (Registration T S E C X)) : MachineDraft T S E C X :=
  ⟨(rs.filterMap access?).getLast?, (rs.filterMap report?).getLast?, rs.flatMap added,
    rs.filterMap listener?⟩

variable [Descriptor S]

/-- A step is rejected, or adds what it is to add. -/
lemma register_eq (d : MachineDraft T S E C X) (r : Registration T S E C X) :
    d.register r = match r.rejection? with
      | some rejection => .error rejection
      | none => .ok (d.extend r) := by
  cases r with
  | textTransition source event target text =>
    simp only [register, rejection?, extend, added]
    cases Transition.whenText (T := T) (C := C) source event target text <;>
      simp [addTransition, access?, report?, listener?, Except.toOption]
  | draft draft =>
    simp only [register, rejection?, extend, added]
    cases draft.build <;> simp [addTransition, access?, report?, listener?, Except.toOption]
  | listener l =>
    simp only [register, rejection?, extend, added]
    cases l.rejection? <;> simp [access?, report?, listener?]
  | _ =>
    simp [register, addTransition, rejection?, extend, access?, report?, added, listener?]

/-- Steps are accepted if none is to be rejected, and what they add is put together part by part. -/
lemma foldlM_register_eq_ok_iff {d d' : MachineDraft T S E C X}
    {rs : List (Registration T S E C X)} :
    rs.foldlM register d = .ok d' ↔ (∀ r ∈ rs, r.rejection? = none) ∧
      d' = ⟨(rs.filterMap access?).getLast?.or d.accessor?,
        (rs.filterMap report?).getLast?.or d.unresolved?,
        d.transitions ++ rs.flatMap added, d.listeners ++ rs.filterMap listener?⟩ := by
  induction rs generalizing d with
  | nil => simp [pure, Except.pure, eq_comm]
  | cons r rest ih =>
    rw [List.foldlM_cons, register_eq, List.forall_mem_cons]
    cases hr : r.rejection? with
    | some rejection => simp [bind, Except.bind]
    | none =>
      change rest.foldlM register (d.extend r) = .ok d' ↔ _
      have hlisteners : (r :: rest).filterMap listener?
          = r.listener?.toList ++ rest.filterMap listener? := by
        rw [List.filterMap_eq_flatMap_toList, List.filterMap_eq_flatMap_toList, List.flatMap_cons]
      simp only [ih, extend, getLast?_filterMap_cons, hlisteners, Option.or_assoc,
        List.append_assoc, List.flatMap_cons, true_and]

/-- The draft of a sequence of steps, if none of them is rejected. -/
lemma ofRegistrations_eq_ok_iff {d : MachineDraft T S E C X}
    {rs : List (Registration T S E C X)} :
    ofRegistrations rs = .ok d ↔ (∀ r ∈ rs, r.rejection? = none) ∧ d = collect rs := by
  rw [ofRegistrations, foldlM_register_eq_ok_iff]
  simp only [empty, collect, Option.or_none, List.nil_append]

/-! ## Building a draft -/

omit [Descriptor S] in
/-- A draft gives a machine if nothing is missing, and the machine is made of its parts. -/
lemma build_eq_ok_iff {d : MachineDraft T S E C X} {m : Machine T S E C X} :
    d.build = .ok m ↔ d.faults = [] ∧ d.transitions = m.transitions ∧
      d.listeners = m.listeners ∧ d.accessor? = some m.accessor ∧
      d.unresolved? = some m.unresolved := by
  obtain ⟨access, report, transitions, listeners⟩ := d
  obtain ⟨transitions', listeners', accessor, unresolved⟩ := m
  rcases access with _ | access <;> rcases report with _ | report <;>
    rcases transitions with _ | ⟨t, transitions⟩ <;> simp [build, faults]

omit [Descriptor S] in
/-- Otherwise it gives everything that is missing. -/
lemma build_eq_error_iff {d : MachineDraft T S E C X} {errors : BuildErrors} :
    d.build = .error errors ↔ d.faults ≠ [] ∧ ⟨d.faults⟩ = errors := by
  obtain ⟨access, report, transitions, listeners⟩ := d
  rcases access with _ | access <;> rcases report with _ | report <;>
    rcases transitions with _ | ⟨t, transitions⟩ <;> simp [build, faults]

end MachineDraft

/-! ## Sequences that differ in the order of steps for different parts -/

/-- The states that a listener describes. -/
def Listener.descriptors (l : Listener T S E C) : List S :=
  match l.reaction with
  | .state descriptor _ _ => [descriptor]
  | .transform source target _ => [source, target]
  | _ => []

/-- A listener is accepted if each of the states that it describes has a label. -/
lemma Listener.rejection?_eq_none_iff [Descriptor S] {l : Listener T S E C} :
    l.rejection? = none ↔ ∀ descriptor ∈ l.descriptors, hasLabel descriptor = true := by
  obtain ⟨name, reaction⟩ := l
  cases reaction with
  | transform source target run =>
    simp only [rejection?, descriptors, List.forall_mem_cons]
    cases hasLabel source <;> cases hasLabel target <;> simp
  | _ => simp [rejection?, descriptors]

variable [DecidableEq E]

namespace Registration

/-- Two sequences of steps have the same steps for each part of a machine, in the same order; of
the accessors and of the reports, only the last ones have to be the same.  How the steps for
different parts are mixed is left open. -/
structure SameParts (rs rs' : List (Registration T S E C X)) : Prop where
  access : (rs'.filterMap access?).getLast? = (rs.filterMap access?).getLast?
  report : (rs'.filterMap report?).getLast? = (rs.filterMap report?).getLast?
  transitions : rs'.filter isTransition = rs.filter isTransition
  listeners : ∀ binding,
    (rs'.filterMap listener?).filter (fun l => l.reaction.binding = binding)
      = (rs.filterMap listener?).filter fun l => l.reaction.binding = binding

namespace SameParts

variable {rs rs' : List (Registration T S E C X)}

lemma added_eq (h : SameParts rs rs') : rs'.flatMap added = rs.flatMap added := by
  rw [← flatMap_added_filter rs', h.transitions, flatMap_added_filter]

lemma mem_listener (h : SameParts rs rs') {l : Listener T S E C}
    (hl : .listener l ∈ rs') : .listener l ∈ rs := by
  have hmem : l ∈ (rs'.filterMap listener?).filter
      (fun l' => l'.reaction.binding = l.reaction.binding) :=
    List.mem_filter.2 ⟨List.mem_filterMap.2 ⟨_, hl, rfl⟩, decide_eq_true rfl⟩
  rw [h.listeners] at hmem
  obtain ⟨r, hr, hrl⟩ := List.mem_filterMap.1 (List.mem_filter.1 hmem).1
  exact listener?_eq_some_iff.1 hrl ▸ hr

lemma mem_of_isTransition (h : SameParts rs rs') {r : Registration T S E C X} (hr : r ∈ rs')
    (hadds : r.isTransition = true) : r ∈ rs := by
  have hmem : r ∈ rs'.filter isTransition := List.mem_filter.2 ⟨hr, hadds⟩
  rw [h.transitions] at hmem
  exact (List.mem_filter.1 hmem).1

/-- The same is missing from what they collect. -/
lemma faults_collect (h : SameParts rs rs') :
    (MachineDraft.collect rs').faults = (MachineDraft.collect rs).faults := by
  rw [MachineDraft.faults, MachineDraft.faults, MachineDraft.collect, MachineDraft.collect,
    h.access, h.report, h.added_eq]

/-- If one of the sequences is accepted, then so is the other. -/
lemma accepted [Descriptor S] (h : SameParts rs rs') (hrs : ∀ r ∈ rs, r.rejection? = none) :
    ∀ r ∈ rs', r.rejection? = none := by
  intro r hr
  cases r with
  | accessor a => rfl
  | unresolved report => rfl
  | listener l => exact hrs _ (h.mem_listener hr)
  | _ => exact hrs _ (h.mem_of_isTransition hr rfl)

end SameParts

end Registration

namespace MachineDraft

open Registration

variable [Descriptor S] [HasFields T] [HasFields C] [OfEvalError X]

/-- **Steps for different parts commute.**  If two sequences of steps differ in how the steps for
different parts are mixed, and one is accepted, then so is the other.  Either both drafts lack the
same, or both give machines with the same table, which dispatch every event with the same calls,
subject and outcome.  The listeners of a machine that is described in steps describe states with
a label. -/
theorem ofRegistrations_of_sameParts {rs rs' : List (Registration T S E C X)}
    (h : SameParts rs rs') {d : MachineDraft T S E C X} (hd : ofRegistrations rs = .ok d) :
    ∃ d', ofRegistrations rs' = .ok d' ∧
      (∀ errors, d'.build = .error errors ↔ d.build = .error errors) ∧
      ∀ m, d.build = .ok m →
        (∀ l ∈ m.listeners, ∀ descriptor ∈ l.descriptors, hasLabel descriptor = true) ∧
        ∃ m', d'.build = .ok m' ∧ m'.transitions = m.transitions ∧
          (∀ subject source event context, m'.dispatchFrom subject source event context
            = m.dispatchFrom subject source event context) ∧
          ∀ subject event context, m'.dispatch subject event context
            = m.dispatch subject event context := by
  obtain ⟨haccepted, rfl⟩ := ofRegistrations_eq_ok_iff.1 hd
  refine ⟨_, ofRegistrations_eq_ok_iff.2 ⟨h.accepted haccepted, rfl⟩, fun errors => ?_,
    fun m hm => ⟨?_, ?_⟩⟩
  · rw [build_eq_error_iff, build_eq_error_iff, h.faults_collect]
  · -- the listeners have been accepted
    intro l hl
    rw [← (build_eq_ok_iff.1 hm).2.2.1] at hl
    obtain ⟨r, hr, hrl⟩ := List.mem_filterMap.1 hl
    have hlistener := haccepted r hr
    rw [listener?_eq_some_iff.1 hrl, rejection?, Option.map_eq_none_iff] at hlistener
    exact Listener.rejection?_eq_none_iff.1 hlistener
  · obtain ⟨hfaults, htransitions, hlisteners, haccess, hreport⟩ := build_eq_ok_iff.1 hm
    have hbuild : (collect rs').build = .ok { m with listeners := rs'.filterMap listener? } :=
      build_eq_ok_iff.2 ⟨h.faults_collect.trans hfaults, h.added_eq.trans htransitions, rfl,
        h.access.trans haccess, h.report.trans hreport⟩
    have hdue (moment : Moment S E C) :
        ({ m with listeners := rs'.filterMap listener? }).due moment = m.due moment :=
      Machine.due_eq_of_bindings
        (fun binding => (h.listeners binding).trans (by rw [← hlisteners, collect])) moment
    have hdispatch (subject : T) (source : S) (event : E) (context : Option C) :
        ({ m with listeners := rs'.filterMap listener? }).dispatchFrom subject source event context
          = m.dispatchFrom subject source event context :=
      Machine.dispatchFrom_congr hdue rfl rfl rfl subject context
    exact ⟨_, hbuild, rfl, hdispatch, fun subject event context =>
      hdispatch subject (m.accessor.get subject) event context⟩

end MachineDraft

/-! ## The door, described in steps -/

namespace Door

/-- The steps that describe the door, one part after the other. -/
def steps : List (Registration Door (Composite Bool 1) Bool Unit EvalError) :=
  [.accessor machine.accessor, .unresolved machine.unresolved, .transitions machine.transitions]
    ++ machine.listeners.map .listener

/-- Steps that describe the door, too: the listeners first, and the other way round; before them an
accessor that keeps the door as it is, which is replaced in the end. -/
def mixedSteps : List (Registration Door (Composite Bool 1) Bool Unit EvalError) :=
  .accessor ⟨Door.state, fun door _ => door⟩ :: machine.listeners.reverse.map .listener
    ++ [.transitions machine.transitions, .unresolved machine.unresolved,
      .accessor machine.accessor]

end Door

/-- Described in either way, the door opens when it is pushed. -/
theorem MachineDraft.ofRegistrations_of_sameParts_door :
    Registration.SameParts Door.steps Door.mixedSteps ∧
      MachineDraft.ofRegistrations Door.steps = .ok (MachineDraft.collect Door.steps) ∧
      ∃ d m, MachineDraft.ofRegistrations Door.mixedSteps = .ok d ∧ d.build = .ok m ∧
        (m.dispatch ⟨Door.shut, false⟩ true none).outcome = .moved Door.opened := by
  have hparts : Registration.SameParts Door.steps Door.mixedSteps := by
    refine ⟨rfl, rfl, rfl, fun binding => ?_⟩
    cases binding with
    | machine timing => cases timing <;> rfl
    | state side => cases side <;> rfl
    | _ => rfl
  have hsteps :
      MachineDraft.ofRegistrations Door.steps = .ok (MachineDraft.collect Door.steps) := by
    cbv
  obtain ⟨d, hd, -, hbuilt⟩ := MachineDraft.ofRegistrations_of_sameParts hparts hsteps
  obtain ⟨-, m, hm, -, -, hdispatch⟩ := hbuilt Door.machine rfl
  refine ⟨hparts, hsteps, d, m, hd, hm, ?_⟩
  rw [hdispatch]
  cbv

end GuardedMachine
