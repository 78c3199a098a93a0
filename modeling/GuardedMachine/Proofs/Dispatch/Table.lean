/-
# What a dispatch owes to the table

A dispatch looks at the table of transitions in one place only: resolution, which the candidates
for the event in the state decide.  So transitions that are no candidates can be added or removed
anywhere without a trace (`dispatchFrom_eq_of_equalBut`), and the candidates are those that a
machine lists when it is asked for the transitions from the state.

The order of the table decides which guards are asked before one fails, and which of several
failing guards is the first.  It decides nothing else (`dispatchFrom_of_perm`): whether a guard
fails, whether exactly one candidate passes, and which one it is do not depend on the order.
-/
import Mathlib.Logic.ExistsUnique
import GuardedMachine.Proofs.Dispatch.Attempts

namespace GuardedMachine

variable {T S E C X : Type}

/-! ## Lists that differ beside what matters -/

/-- Two lists are equal but for elements to be skipped, which may stand anywhere in either. -/
inductive EqualBut {α : Type} (skip : α → Prop) : List α → List α → Prop
  | nil : EqualBut skip [] []
  /-- Both lists go on with the same element. -/
  | both (a : α) {as bs : List α} : EqualBut skip as bs → EqualBut skip (a :: as) (a :: bs)
  /-- The first list has an element more. -/
  | left {a : α} {as bs : List α} : skip a → EqualBut skip as bs → EqualBut skip (a :: as) bs
  /-- The second list has an element more. -/
  | right {a : α} {as bs : List α} : skip a → EqualBut skip as bs → EqualBut skip as (a :: bs)

/-- What is left of such lists without the elements to be skipped is the same. -/
lemma EqualBut.filter_eq {α : Type} {skip : α → Prop} {p : α → Bool}
    (hp : ∀ a, skip a → p a = false) {as bs : List α} (h : EqualBut skip as bs) :
    as.filter p = bs.filter p := by
  induction h with
  | nil => rfl
  | both a _ ih => rw [List.filter_cons, List.filter_cons, ih]
  | left hskip _ ih => rw [List.filter_cons, hp _ hskip, if_neg Bool.false_ne_true, ih]
  | right hskip _ ih => rw [List.filter_cons, hp _ hskip, if_neg Bool.false_ne_true, ih]

namespace Machine

variable [Descriptor S] [DecidableEq E] [HasFields T] [HasFields C] [OfEvalError X]

/-! ## Candidates -/

/-- A dispatch depends on the listeners that are due, on the candidates, on the access to the
state and on the report, and on nothing else of the machine. -/
lemma dispatchFrom_congr {m m' : Machine T S E C X} {source : S} {event : E}
    (hdue : ∀ moment, m'.due moment = m.due moment)
    (hcandidates : m'.candidates source event = m.candidates source event)
    (haccessor : m'.accessor = m.accessor) (hunresolved : m'.unresolved = m.unresolved)
    (subject : T) (context : Option C) :
    m'.dispatchFrom subject source event context = m.dispatchFrom subject source event context := by
  have hdues : m'.due = m.due := funext hdue
  simp only [dispatchFrom, resolve, weigh_candidates, hdues, hcandidates, haccessor, hunresolved]

/-- **Introspection agrees with dispatch.**  Reduced to the transitions that it lists for a state,
and of these to the ones for an event, a machine dispatches that event from that state as before:
every call, the subject and the outcome are the same.  So they are with every table that differs
from the machine's by transitions for other events or with sources that do not overlap the state,
wherever these are added or removed. -/
theorem dispatchFrom_eq_of_equalBut (m : Machine T S E C X) (subject : T) (source : S) (event : E)
    (context : Option C) :
    let d := m.dispatchFrom subject source event context
    let reduced := (m.transitionsFrom source).filter fun t => t.event = event
    ({ m with transitions := reduced }).dispatchFrom subject source event context = d ∧
    ∀ table, EqualBut (fun t => t.event ≠ event ∨ overlaps t.source source = false)
        m.transitions table →
      ({ m with transitions := table }).dispatchFrom subject source event context = d := by
  intro d reduced
  have same_dispatch {table : List (Transition T S E C)}
      (h : table.filter (fun t => t.appliesTo source event) = m.candidates source event) :
      ({ m with transitions := table }).dispatchFrom subject source event context = d := by
    refine dispatchFrom_congr (m := m) ?_ ?_ ?_ ?_ subject context
    · exact fun _ => rfl
    · exact h
    · rfl
    · rfl
  constructor
  · refine same_dispatch ?_
    -- to be listed for the state and the event is to be a candidate
    simp only [reduced, transitionsFrom, candidates, List.filter_filter, Transition.appliesTo]
    refine List.filter_congr fun t _ => ?_
    cases overlaps t.source source <;> cases decide (t.event = event) <;> rfl
  · intro table htable
    refine same_dispatch (htable.filter_eq fun t ht => ?_).symm
    rw [Transition.appliesTo]
    rcases ht with ht | ht
    · rw [decide_eq_false ht, Bool.false_and]
    · rw [ht, Bool.and_false]

/-- Pushing a shut door does not depend on a transition in front of the table, for pulling, whose
guard would fail, nor on the ones for pulling that the door had. -/
theorem dispatchFrom_eq_of_equalBut_door :
    let owner : Guard Door (Composite Bool 1) Bool Unit :=
      .text ⟨"#.owner;", .path ⟨.subject, ["owner"]⟩⟩
    let table := ⟨Door.shut, false, Door.opened, some owner⟩ :: Door.machine.transitions.take 1
    EqualBut (fun t => t.event ≠ true ∨ overlaps t.source Door.shut = false)
        Door.machine.transitions table ∧
      ({ Door.machine with transitions := table }.dispatchFrom ⟨Door.shut, false⟩ Door.shut true
        none).outcome = .moved Door.opened := by
  intro owner table
  have htable : EqualBut (fun t => t.event ≠ true ∨ overlaps t.source Door.shut = false)
      Door.machine.transitions table :=
    .right (Or.inl Bool.false_ne_true) (.both _ (.left (Or.inl Bool.false_ne_true)
      (.left (Or.inl Bool.false_ne_true) .nil)))
  refine ⟨htable, ?_⟩
  rw [(dispatchFrom_eq_of_equalBut Door.machine ⟨Door.shut, false⟩ Door.shut true none).2 table
    htable]
  cbv

end Machine

/-! ## Endings -/

/-- How a dispatch can end; of several guards that fail it is left open which was the first. -/
inductive Ending (S X : Type)
  /-- The subject has moved to a state. -/
  | moved (target : S)
  /-- A guard has failed. -/
  | guardFailed
  /-- The event was not resolved, and its report has given an error. -/
  | reported (error : X)
  /-- A listener has panicked. -/
  | panicked (message : String)
deriving DecidableEq

/-- What a dispatch shows of its ending: its outcome, and for an error the last call, which is
that of the guard that has failed or that of the report. -/
def Dispatch.EndsAs [HasFields T] [HasFields C] [OfEvalError X] (d : Dispatch T S E C X) :
    Ending S X → Prop
  | .moved target => d.outcome = .moved target
  | .guardFailed => ∃ e t g source event context resolved,
    d.outcome = .failed (OfEvalError.ofEvalError e) ∧
      d.calls.getLast? = some ⟨t, .guard g source event context resolved⟩ ∧
      (g.evaluate t source event context).result = .error e
  | .reported error => ∃ t source event,
    d.outcome = .failed error ∧ d.calls.getLast? = some ⟨t, .unresolved source event error⟩
  | .panicked message => d.outcome = .panicked message

/-- A dispatch has one ending. -/
lemma Dispatch.EndsAs.unique [HasFields T] [HasFields C] [OfEvalError X] {d : Dispatch T S E C X}
    {a b : Ending S X} (ha : d.EndsAs a) (hb : d.EndsAs b) : a = b := by
  cases a <;> cases b <;> simp only [EndsAs] at ha hb <;> grind

namespace Transition

/-- No first guard fails if and only if none does. -/
lemma firstError?_eq_none_iff {answer : Transition T S E C → Except EvalError Bool}
    {ts : List (Transition T S E C)} :
    firstError? answer ts = none ↔ ∀ t ∈ ts, ∃ b, answer t = .ok b := by
  constructor
  · intro h
    rcases all_ok_or_first_error answer ts with hok | ⟨earlier, t, later, e, rfl, hearlier, ht⟩
    · exact hok
    · rw [(asked_of_error hearlier ht later).2] at h
      cases h
  · intro h
    exact (asked_of_ok h).2

/-- How resolution ends if some transitions pass and no guard fails. -/
def resolutionOf : List (Transition T S E C) → Resolution S
  | [t] => .target t.target
  | _ => .unresolved

/-- Whether one transition alone passes, and where it leads to, does not depend on the order. -/
lemma resolutionOf_of_perm {ts us : List (Transition T S E C)} (h : ts.Perm us) :
    resolutionOf ts = resolutionOf us := by
  rcases us with _ | ⟨u, _ | ⟨v, rest⟩⟩
  · rw [h.eq_nil]
  · rw [List.perm_singleton.1 h]
  · -- neither is a single transition
    have hlen := h.length_eq
    rcases ts with _ | ⟨t, _ | ⟨t', rest'⟩⟩
    · cases hlen
    · cases hlen
    · rfl

end Transition

namespace Machine

variable [Descriptor S] [DecidableEq E] [HasFields T] [HasFields C]

/-- If a guard fails, it is the last one that is asked. -/
lemma exists_calls_guardSteps_of_guardFails {m : Machine T S E C X} {ready : T} {source : S}
    {event : E} {context : Option C} {e : EvalError}
    (h : m.resolution ready source event context = .guardFails e) :
    ∃ earlier g resolved, Step.calls (m.guardSteps ready source event context) ready
        = earlier ++ [⟨ready, .guard g source event context resolved⟩] ∧
      (g.evaluate ready source event context).result = .error e := by
  simp only [resolution] at h
  rcases Transition.all_ok_or_first_error (fun t => t.answer ready source event context)
      (m.transitions.filter fun t => t.event = event ∧ overlaps t.source source) with
    hok | ⟨earlier, t, later, e', hsplit, hearlier, ht⟩
  · rw [(Transition.asked_of_ok hok).2] at h
    simp only at h
    split at h <;> cases h
  · obtain ⟨hasked, hfirst⟩ := Transition.asked_of_error hearlier ht later
    rw [hsplit, hfirst] at h
    cases h
    obtain ⟨statement, hguard⟩ := Transition.exists_text_of_answer_error ht
    have hanswer : ((Guard.text statement).evaluate ready source event context).result
        = .error e := by
      rw [Transition.answer, hguard] at ht
      exact ht
    refine ⟨earlier.filterMap fun u => u.guardCall? ready source event context, .text statement,
      ((Guard.text statement).evaluate ready source event context).resolved, ?_, hanswer⟩
    rw [guardSteps, hsplit, hasked, (Transition.calls_guardSteps _ _ _ _ _).1,
      List.filterMap_append]
    simp only [List.filterMap_cons, List.filterMap_nil, Transition.guardCall?, hguard,
      Option.map_some]

/-- The ending of a dispatch. -/
def ending (m : Machine T S E C X) (subject : T) (source : S) (event : E) (context : Option C) :
    Ending S X :=
  let ready := m.ready subject source event context
  match (Attempt.perform (m.attempts subject source event context) subject).panic with
  | some message => .panicked message
  | none =>
    match m.resolution ready source event context with
    | .target target => .moved target
    | .guardFails _ => .guardFailed
    | .unresolved => .reported (m.unresolved ready source event)

/-- If a dispatch ends without a panic, none of the listeners before resolution panics. -/
lemma return_attemptsBefore {m : Machine T S E C X} {subject : T} {source : S} {event : E}
    {context : Option C}
    (h : (Attempt.perform (m.attempts subject source event context) subject).panic = none) :
    Attempt.Return (m.attemptsBefore source event context) subject := by
  cases hpanic : (Attempt.perform (m.attemptsBefore source event context) subject).panic with
  | some message =>
    rw [m.perform_attempts_of_panic hpanic, hpanic] at h
    cases h
  | none => exact hpanic

/-- A dispatch shows its ending. -/
lemma dispatchFrom_endsAs [OfEvalError X] (m : Machine T S E C X) (subject : T) (source : S)
    (event : E) (context : Option C) :
    (m.dispatchFrom subject source event context).EndsAs
      (m.ending subject source event context) := by
  have hdispatch := m.dispatchFrom_eq_perform subject source event context
  simp only [ending]
  cases hpanic : (Attempt.perform (m.attempts subject source event context) subject).panic with
  | some message =>
    simp only [Dispatch.EndsAs, hdispatch, hpanic]
  | none =>
    have hperformed := m.perform_attempts (return_attemptsBefore hpanic)
    cases hresolution :
        m.resolution (m.ready subject source event context) source event context with
    | target target =>
      simp only [Dispatch.EndsAs, hdispatch, hpanic, hresolution, conclusion]
    | guardFails e =>
      obtain ⟨earlier, g, resolved, hguards, hanswer⟩ :=
        exists_calls_guardSteps_of_guardFails hresolution
      refine ⟨e, _, g, source, event, context, resolved, ?_, ?_, hanswer⟩
      · rw [hdispatch]
        simp only [hpanic, hresolution, conclusion]
      · rw [hdispatch]
        simp only [hperformed, hresolution, hguards, attemptsAfter, Attempt.perform,
          List.append_nil, ← List.append_assoc, List.getLast?_concat]
    | unresolved =>
      refine ⟨m.ready subject source event context, source, event, ?_, ?_⟩
      · rw [hdispatch]
        simp only [hpanic, hresolution, conclusion]
      · rw [hdispatch]
        simp only [hperformed, hresolution, attemptsAfter, Attempt.perform, Attempt.ofStep,
          List.getLast?_concat]

/-! ## The order of the table -/

section Order

variable {m : Machine T S E C X} {table : List (Transition T S E C)}

/-- Resolution ends in the same way for every order of the table, except that it may be another
guard that fails. -/
lemma resolution_of_perm (h : table.Perm m.transitions) (ready : T) (source : S) (event : E)
    (context : Option C) :
    let r := m.resolution ready source event context
    let r' := ({ m with transitions := table }).resolution ready source event context
    r' = r ∨ ∃ e e', r = .guardFails e ∧ r' = .guardFails e' := by
  intro r r'
  have hcandidates := h.filter fun t => t.event = event ∧ overlaps t.source source
  have hpassing := hcandidates.filter fun t => t.passes ready source event context
  simp only [r, r', resolution]
  rcases hfirst : Transition.firstError? (fun t => t.answer ready source event context)
      (m.transitions.filter fun t => t.event = event ∧ overlaps t.source source) with _ | e
  · -- no guard fails, in either order, and the same candidates pass
    have hfirst' : Transition.firstError? (fun t => t.answer ready source event context)
        (table.filter fun t => t.event = event ∧ overlaps t.source source) = none :=
      Transition.firstError?_eq_none_iff.2 fun t ht =>
        Transition.firstError?_eq_none_iff.1 hfirst t (hcandidates.mem_iff.1 ht)
    left
    rw [hfirst']
    exact Transition.resolutionOf_of_perm hpassing
  · -- a guard fails, and in the other order this one or another does
    rcases hfirst' : Transition.firstError? (fun t => t.answer ready source event context)
        (table.filter fun t => t.event = event ∧ overlaps t.source source) with _ | e'
    · have hnone := Transition.firstError?_eq_none_iff.2 fun t ht =>
        Transition.firstError?_eq_none_iff.1 hfirst' t (hcandidates.mem_iff.2 ht)
      rw [hfirst] at hnone
      cases hnone
    · exact Or.inr ⟨e, e', rfl, rfl⟩

/-- What is performed leaves the same subject, and panics alike, for every order of the table. -/
lemma perform_of_perm (h : table.Perm m.transitions) (subject : T) (source : S) (event : E)
    (context : Option C) :
    let m' := { m with transitions := table }
    let performed := Attempt.perform (m.attempts subject source event context) subject
    let performed' := Attempt.perform (m'.attempts subject source event context) subject
    performed'.subject = performed.subject ∧ performed'.panic = performed.panic := by
  intro m' performed performed'
  have hbefore : m'.attemptsBefore source event context = m.attemptsBefore source event context :=
    rfl
  cases hpanic : (Attempt.perform (m.attemptsBefore source event context) subject).panic with
  | some message =>
    have hperformed := m.perform_attempts_of_panic hpanic
    have hperformed' := m'.perform_attempts_of_panic (hbefore ▸ hpanic)
    rw [show performed = _ from hperformed, show performed' = _ from hperformed', hbefore]
    exact ⟨rfl, rfl⟩
  | none =>
    have hperformed := m.perform_attempts hpanic
    have hperformed' := m'.perform_attempts (hbefore ▸ hpanic)
    rw [show performed = _ from hperformed, show performed' = _ from hperformed']
    have hready : m'.ready subject source event context = m.ready subject source event context :=
      rfl
    rcases resolution_of_perm h (m.ready subject source event context) source event context with
      hr | ⟨e, e', hr, hr'⟩
    · rw [hready, hr]
      exact ⟨rfl, rfl⟩
    · rw [hready, hr, hr']
      exact ⟨rfl, rfl⟩

/-- The ending does not depend on the order of the table. -/
lemma ending_of_perm (h : table.Perm m.transitions) (subject : T) (source : S) (event : E)
    (context : Option C) :
    ({ m with transitions := table }).ending subject source event context
      = m.ending subject source event context := by
  have hready : ({ m with transitions := table }).ready subject source event context
      = m.ready subject source event context := rfl
  simp only [ending, (perform_of_perm h subject source event context).2, hready]
  cases (Attempt.perform (m.attempts subject source event context) subject).panic with
  | some message => rfl
  | none =>
    rcases resolution_of_perm h (m.ready subject source event context) source event context with
      hr | ⟨e, e', hr, hr'⟩
    · rw [hr]
    · rw [hr, hr']

variable [OfEvalError X]

/-- **The order of the table does not decide outcomes.**  A machine whose transitions are registered
in another order leaves the same subject after every dispatch, and the dispatch has the same
ending: it moves to the same target, is reported with the same error or panics with the same
message, or the guard of a candidate fails in both, though perhaps not of the same one.  Every
dispatch has exactly one of these endings. -/
theorem dispatchFrom_of_perm (h : table.Perm m.transitions) (subject : T) (source : S) (event : E)
    (context : Option C) :
    let d := m.dispatchFrom subject source event context
    let d' := ({ m with transitions := table }).dispatchFrom subject source event context
    d'.subject = d.subject ∧ (∀ ending, d'.EndsAs ending ↔ d.EndsAs ending) ∧
      ∃! ending, d.EndsAs ending := by
  intro d d'
  have hends : d.EndsAs (m.ending subject source event context) :=
    m.dispatchFrom_endsAs subject source event context
  have hends' : d'.EndsAs (m.ending subject source event context) := by
    rw [← ending_of_perm h]
    exact dispatchFrom_endsAs _ subject source event context
  refine ⟨?_, fun ending => ?_, ⟨_, hends, fun ending hending => hending.unique hends⟩⟩
  · rw [show d.subject = _ from
        congrArg Dispatch.subject (m.dispatchFrom_eq_perform subject source event context),
      show d'.subject = _ from
        congrArg Dispatch.subject (dispatchFrom_eq_perform _ subject source event context)]
    exact (perform_of_perm h subject source event context).1
  · constructor
    · intro hending
      rw [hending.unique hends']
      exact hends
    · intro hending
      rw [hending.unique hends]
      exact hends'

/-- Pulling an open door ends with a guard that fails, also if that guard is asked first. -/
theorem dispatchFrom_of_perm_pulled :
    Door.machine.transitions.reverse.Perm Door.machine.transitions ∧
      ({ Door.machine with transitions := Door.machine.transitions.reverse }.dispatchFrom
        ⟨Door.opened, false⟩ Door.opened false none).EndsAs .guardFailed := by
  have hperm := List.reverse_perm Door.machine.transitions
  refine ⟨hperm, ?_⟩
  obtain ⟨-, hends, -⟩ := dispatchFrom_of_perm (X := EvalError) hperm ⟨Door.opened, false⟩
    Door.opened false none
  rw [hends]
  refine ⟨.notBoolean .null, ⟨Door.opened, true⟩,
    .text ⟨"#.owner;", .path ⟨.subject, ["owner"]⟩⟩, Door.opened, false, none,
    [⟨.subject, ["owner"]⟩], ?_, ?_, ?_⟩
  · cbv
  · cbv
  · cbv

end Order

end Machine

end GuardedMachine
