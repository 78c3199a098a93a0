/-
# What drafts are built to

A draft of a transition holds what was set last.  So its closed form after a sequence of clauses
(`TransitionDraft.ofClauses_eq`) is made of the last clause for each part, and all that is wrong
with it can be said of the clauses: the parts for which there is none, and the error of the guard
text, if text that does not compile is the last one for the guard (`Clause.problems`).  A clause
that is replaced later on leaves no trace.

A draft of a machine is built in the same way; its closed form is that of
`MachineDraft.ofRegistrations_eq_ok_iff`.  Here the last accessor and the last report count, while
transitions are not replaced but collected.
-/
import Mathlib.Data.List.Induction
import GuardedMachine.Proofs.Machine.Registrations

namespace GuardedMachine

variable {T S E C X : Type}

/-! ## The last of some settings -/

section Last

variable {α β : Type} {f : α → Option β}

lemma getLast?_filterMap_concat (f : α → Option β) (as : List α) (a : α) :
    ((as ++ [a]).filterMap f).getLast? = (f a).or (as.filterMap f).getLast? := by
  rw [List.filterMap_append, List.getLast?_append]
  cases h : f a <;> simp [h]

lemma getLast?_filterMap_eq_some_iff {as : List α} {b : β} :
    (as.filterMap f).getLast? = some b ↔
      ∃ before a after, as = before ++ a :: after ∧ f a = some b ∧ ∀ a' ∈ after, f a' = none := by
  constructor
  · intro h
    obtain ⟨bs, hbs⟩ := List.getLast?_eq_some_iff.1 h
    obtain ⟨before, rest, rfl, -, hrest⟩ := List.filterMap_eq_append_iff.1 hbs
    obtain ⟨skipped, a, after, rfl, -, ha, hafter⟩ := List.filterMap_eq_cons_iff.1 hrest
    exact ⟨before ++ skipped, a, after, by simp, ha, List.filterMap_eq_nil_iff.1 hafter⟩
  · rintro ⟨before, a, after, rfl, ha, hafter⟩
    rw [List.filterMap_append, List.filterMap_cons, ha, List.filterMap_eq_nil_iff.2 hafter]
    exact List.getLast?_concat

/-- A setting that is replaced does not count. -/
lemma getLast?_filterMap_replaced {before after : List α} {a : α}
    (h : f a = none ∨ ∃ a' ∈ after, f a' ≠ none) :
    ((before ++ a :: after).filterMap f).getLast? = ((before ++ after).filterMap f).getLast? := by
  rw [List.filterMap_append, List.filterMap_append, List.getLast?_append, List.getLast?_append,
    getLast?_filterMap_cons]
  rcases h with ha | ⟨a', ha', hne⟩
  · rw [ha, Option.or_none]
  · cases hlast : (after.filterMap f).getLast? with
    | some b => rfl
    | none =>
      rw [List.getLast?_eq_none_iff, List.filterMap_eq_nil_iff] at hlast
      exact absurd (hlast a' ha') hne

end Last

/-! ## Drafts of transitions -/

namespace Clause

/-- The parts of a transition. -/
inductive Part
  | source
  | event
  | target
  | guard
deriving DecidableEq

/-- The part that a clause sets. -/
def part : Clause T S E C → Part
  | .source _ => .source
  | .event _ => .event
  | .target _ => .target
  | .guard _ | .predicate _ _ | .text _ => .guard

/-- The source that a clause sets. -/
def source? : Clause T S E C → Option S
  | .source s => some s
  | _ => none

/-- The event that a clause sets. -/
def event? : Clause T S E C → Option E
  | .event e => some e
  | _ => none

/-- The target that a clause sets. -/
def target? : Clause T S E C → Option S
  | .target s => some s
  | _ => none

/-- The guard that a clause sets, or the error of its text. -/
def guard? : Clause T S E C → Option (Except CompileError (Guard T S E C))
  | .guard g => some (.ok g)
  | .predicate name test => some (.ok (.predicate name test))
  | .text t => some (Guard.ofText t)
  | _ => none

/-- The last clause for the guard is text that does not compile. -/
def EndInBadText (cs : List (Clause T S E C)) (e : CompileError) : Prop :=
  ∃ before text after, cs = before ++ Clause.text text :: after ∧ (∀ c ∈ after, c.part ≠ .guard) ∧
    Statement.compile text = .error e

/-- Some clause is for a part. -/
def Cover (cs : List (Clause T S E C)) (p : Part) : Prop := ∃ c ∈ cs, c.part = p

instance (cs : List (Clause T S E C)) (p : Part) : Decidable (Cover cs p) :=
  inferInstanceAs (Decidable (∃ c ∈ cs, c.part = p))

/-- The parts that must be set and for which there is no clause, and the error of the guard text, if
the guard is set last to text that does not compile. -/
def problems (cs : List (Clause T S E C)) : List BuildError :=
  (if Cover cs .source then [] else [BuildError.missingFromState])
    ++ (if Cover cs .event then [] else [BuildError.missingEvent])
    ++ (if Cover cs .target then [] else [BuildError.missingToState])
    ++ match (cs.filterMap guard?).getLast? with
      | some (.error e) => [BuildError.invalidGuard e]
      | _ => []

variable {c : Clause T S E C} {cs : List (Clause T S E C)}

lemma source?_eq_none_iff : c.source? = none ↔ c.part ≠ .source := by
  cases c <;> simp [source?, part]

lemma event?_eq_none_iff : c.event? = none ↔ c.part ≠ .event := by
  cases c <;> simp [event?, part]

lemma target?_eq_none_iff : c.target? = none ↔ c.part ≠ .target := by
  cases c <;> simp [target?, part]

lemma guard?_eq_none_iff : c.guard? = none ↔ c.part ≠ .guard := by
  cases c <;> simp [guard?, part]

lemma guard?_eq_error_iff {e : CompileError} :
    c.guard? = some (.error e) ↔ ∃ text, c = .text text ∧ Statement.compile text = .error e := by
  cases c with
  | text t =>
    simp only [guard?, Guard.ofText]
    cases h : Statement.compile t <;> simp [h, Except.map]
  | _ => simp [guard?]

section Setting

variable {β : Type} {f : Clause T S E C → Option β} {p : Part}

lemma isNone_getLast?_iff (hf : ∀ {c}, f c = none ↔ c.part ≠ p) :
    (cs.filterMap f).getLast?.isNone = true ↔ ¬ Cover cs p := by
  rw [Option.isNone_iff_eq_none, List.getLast?_eq_none_iff, List.filterMap_eq_nil_iff, Cover]
  constructor
  · rintro h ⟨c, hc, hpart⟩
    exact hf.1 (h c hc) hpart
  · intro h c hc
    exact hf.2 fun hpart => h ⟨c, hc, hpart⟩

/-- A clause does not count if there is a later one for the same part. -/
lemma getLast?_replaced (hf : ∀ {c}, f c = none ↔ c.part ≠ p)
    {before after : List (Clause T S E C)} (h : Cover after c.part) :
    ((before ++ c :: after).filterMap f).getLast? = ((before ++ after).filterMap f).getLast? := by
  obtain ⟨d, hd, hpart⟩ := h
  apply getLast?_filterMap_replaced
  by_cases hc : c.part = p
  · exact .inr ⟨d, hd, fun hnone => hf.1 hnone (hpart.trans hc)⟩
  · exact .inl (hf.2 hc)

end Setting

lemma getLast?_guard?_eq_error_iff {e : CompileError} :
    (cs.filterMap guard?).getLast? = some (.error e) ↔ EndInBadText cs e := by
  rw [getLast?_filterMap_eq_some_iff]
  constructor
  · rintro ⟨before, c, after, rfl, hc, hafter⟩
    obtain ⟨text, rfl, htext⟩ := guard?_eq_error_iff.1 hc
    exact ⟨before, text, after, rfl, fun c hc => guard?_eq_none_iff.1 (hafter c hc), htext⟩
  · rintro ⟨before, text, after, rfl, hafter, htext⟩
    exact ⟨before, .text text, after, rfl, guard?_eq_error_iff.2 ⟨text, rfl, htext⟩,
      fun c hc => guard?_eq_none_iff.2 (hafter c hc)⟩

/-- Nothing is wrong if there is a clause for each part that must be set, and the guard is not set
last to text that does not compile. -/
lemma problems_eq_nil_iff : problems cs = [] ↔
    Cover cs .source ∧ Cover cs .event ∧ Cover cs .target ∧ ∀ e, ¬ EndInBadText cs e := by
  simp only [problems, List.append_eq_nil_iff, ← getLast?_guard?_eq_error_iff, and_assoc]
  refine and_congr (by simp) (and_congr (by simp) (and_congr (by simp) ?_))
  cases (cs.filterMap guard?).getLast? with
  | none => simp
  | some g => cases g <;> simp

/-- The error of text is there only if the text is the last of all that is set for the guard. -/
lemma invalidGuard_mem_problems_iff {e : CompileError} :
    .invalidGuard e ∈ problems cs ↔ EndInBadText cs e := by
  rw [← getLast?_guard?_eq_error_iff, problems, List.mem_append]
  have hmissing : BuildError.invalidGuard e ∉
      (if Cover cs .source then [] else [BuildError.missingFromState])
        ++ (if Cover cs .event then [] else [BuildError.missingEvent])
        ++ (if Cover cs .target then [] else [BuildError.missingToState]) := by
    simp only [List.mem_append, not_or]
    refine ⟨⟨?_, ?_⟩, ?_⟩ <;> split_ifs <;> simp
  rw [or_iff_right hmissing]
  cases (cs.filterMap guard?).getLast? with
  | none => simp
  | some g => cases g <;> simp [eq_comm]

/-- A sequence of clauses describes a transition if each part of it is what is set last. -/
structure Describe (cs : List (Clause T S E C)) (t : Transition T S E C) : Prop where
  source : (cs.filterMap source?).getLast? = some t.source
  event : (cs.filterMap event?).getLast? = some t.event
  target : (cs.filterMap target?).getLast? = some t.target
  guard : (cs.filterMap guard?).getLast? = t.guard.map .ok

end Clause

namespace TransitionDraft

open Clause

/-- A clause sets one part and leaves the others. -/
lemma add_eq (d : TransitionDraft T S E C) (c : Clause T S E C) :
    d.add c = ⟨c.source?.or d.source?, c.event?.or d.event?, c.target?.or d.target?,
      c.guard?.or d.guard?⟩ := by
  cases c <;> rfl

/-- A draft holds what was set last. -/
lemma ofClauses_eq (cs : List (Clause T S E C)) :
    ofClauses cs = ⟨(cs.filterMap Clause.source?).getLast?, (cs.filterMap Clause.event?).getLast?,
      (cs.filterMap Clause.target?).getLast?, (cs.filterMap Clause.guard?).getLast?⟩ := by
  induction cs using List.reverseRecOn with
  | nil => rfl
  | append_singleton cs c ih =>
    have hadd : ofClauses (cs ++ [c]) = (ofClauses cs).add c := List.foldl_concat ..
    rw [hadd, ih, add_eq]
    simp only [getLast?_filterMap_concat]

/-- A clause that is replaced leaves no trace. -/
lemma ofClauses_replaced {before after : List (Clause T S E C)} {c : Clause T S E C}
    (h : Cover after c.part) :
    ofClauses (before ++ c :: after) = ofClauses (before ++ after) := by
  rw [ofClauses_eq, ofClauses_eq, getLast?_replaced source?_eq_none_iff h,
    getLast?_replaced event?_eq_none_iff h, getLast?_replaced target?_eq_none_iff h,
    getLast?_replaced guard?_eq_none_iff h]

/-- What is wrong with a draft can be said of its clauses. -/
lemma faults_ofClauses (cs : List (Clause T S E C)) : (ofClauses cs).faults = problems cs := by
  rw [ofClauses_eq, faults, problems]
  simp only [isNone_getLast?_iff source?_eq_none_iff, isNone_getLast?_iff event?_eq_none_iff,
    isNone_getLast?_iff target?_eq_none_iff, ite_not, guardError?]
  congr 1
  cases (cs.filterMap Clause.guard?).getLast? with
  | none => rfl
  | some g => cases g <;> rfl

/-- A draft gives a transition if nothing is wrong with it, and the transition is made of its
parts. -/
lemma build_eq_ok_iff {d : TransitionDraft T S E C} {t : Transition T S E C} :
    d.build = .ok t ↔ d.source? = some t.source ∧ d.event? = some t.event ∧
      d.target? = some t.target ∧ d.guard? = t.guard.map .ok := by
  obtain ⟨source, event, target, guard⟩ := d
  obtain ⟨source', event', target', guard'⟩ := t
  rcases source with _ | source <;> rcases event with _ | event <;>
    rcases target with _ | target <;> rcases guard with _ | (_ | guard) <;>
    cases guard' <;> simp [build]

/-- Otherwise it gives everything that is wrong. -/
lemma build_eq_error_iff {d : TransitionDraft T S E C} {errors : BuildErrors} :
    d.build = .error errors ↔ d.faults ≠ [] ∧ ⟨d.faults⟩ = errors := by
  obtain ⟨source, event, target, guard⟩ := d
  rcases source with _ | source <;> rcases event with _ | event <;>
    rcases target with _ | target <;> rcases guard with _ | (_ | guard) <;>
    simp [build, faults, guardError?]

lemma describe_of_build_eq_ok {cs : List (Clause T S E C)} {t : Transition T S E C}
    (h : (ofClauses cs).build = .ok t) : Describe cs t := by
  rw [build_eq_ok_iff, ofClauses_eq] at h
  obtain ⟨hsource, hevent, htarget, hguard⟩ := h
  exact ⟨hsource, hevent, htarget, hguard⟩

lemma build_ofClauses_eq_error_iff {cs : List (Clause T S E C)} {errors : BuildErrors} :
    (ofClauses cs).build = .error errors ↔ problems cs ≠ [] ∧ ⟨problems cs⟩ = errors := by
  rw [build_eq_error_iff, faults_ofClauses]

lemma exists_build_ofClauses_eq_ok_iff {cs : List (Clause T S E C)} :
    (∃ t, (ofClauses cs).build = .ok t) ↔ problems cs = [] := by
  constructor
  · rintro ⟨t, ht⟩
    by_contra hne
    have herror := build_ofClauses_eq_error_iff.2 ⟨hne, rfl⟩
    rw [ht] at herror
    cases herror
  · intro hnil
    cases h : (ofClauses cs).build with
    | ok t => exact ⟨t, rfl⟩
    | error errors => exact absurd hnil (build_ofClauses_eq_error_iff.1 h).1

end TransitionDraft

/-! ## Drafts of machines -/

namespace Registration

/-- What a machine must have and no step gives. -/
def missing (rs : List (Registration T S E C X)) : List BuildError :=
  (if rs.any fun r => r.access?.isSome then [] else [BuildError.missingStateAccessor])
    ++ (if rs.any fun r => r.report?.isSome then [] else [BuildError.missingErrorFactory])
    ++ (if rs.any fun r => !r.added.isEmpty then [] else [BuildError.noTransitions])

/-- A sequence of steps describes a machine if its accessor and its report are what is set last,
and its transitions and its listeners are all that are added, in order. -/
structure Describe (rs : List (Registration T S E C X)) (m : Machine T S E C X) : Prop where
  accessor : (rs.filterMap access?).getLast? = some m.accessor
  unresolved : (rs.filterMap report?).getLast? = some m.unresolved
  transitions : m.transitions = rs.flatMap added
  listeners : m.listeners = rs.filterMap listener?

end Registration

namespace MachineDraft

open Registration

lemma faults_collect (rs : List (Registration T S E C X)) : (collect rs).faults = missing rs := by
  have hlast {β : Type} (f : Registration T S E C X → Option β) :
      (rs.filterMap f).getLast?.isNone = true ↔ ¬ (rs.any fun r => (f r).isSome) = true := by
    simp [Option.isNone_iff_eq_none]
  have hadded : (rs.flatMap added).isEmpty = true ↔
      ¬ (rs.any fun r => !r.added.isEmpty) = true := by
    simp
  simp only [collect, faults, missing, hlast, hadded, ite_not]

variable [Descriptor S]

/-- The first step that is rejected ends the sequence. -/
lemma ofRegistrations_eq_error_iff {rs : List (Registration T S E C X)} {rejection : Rejection S} :
    ofRegistrations rs = .error rejection ↔ rs.findSome? rejection? = some rejection := by
  rw [ofRegistrations]
  generalize (empty : MachineDraft T S E C X) = d
  induction rs generalizing d with
  | nil => simp [pure, Except.pure]
  | cons r rest ih =>
    rw [List.foldlM_cons, register_eq, List.findSome?_cons]
    cases r.rejection? with
    | some first => simp [bind, Except.bind]
    | none => exact ih (d.extend r)

variable {rs : List (Registration T S E C X)} {d : MachineDraft T S E C X}

/-- A draft gives everything that is missing, or the machine that is described. -/
lemma build_of_ofRegistrations (h : ofRegistrations rs = .ok d) :
    (missing rs ≠ [] → d.build = .error ⟨missing rs⟩) ∧
      (missing rs = [] → ∃ m, d.build = .ok m ∧ Describe rs m) := by
  obtain ⟨-, rfl⟩ := ofRegistrations_eq_ok_iff.1 h
  have hfaults := faults_collect rs
  constructor
  · intro hmissing
    exact build_eq_error_iff.2 ⟨hfaults ▸ hmissing, congrArg BuildErrors.mk hfaults⟩
  · intro hmissing
    cases hbuild : (collect rs).build with
    | error errors => exact absurd (hfaults.trans hmissing) (build_eq_error_iff.1 hbuild).1
    | ok m =>
      obtain ⟨-, htransitions, hlisteners, haccess, hreport⟩ := build_eq_ok_iff.1 hbuild
      exact ⟨m, rfl, haccess, hreport, htransitions.symm, hlisteners.symm⟩

end MachineDraft

/-- **What is set last counts, and everything wrong is reported.**  For all sequences of clauses, a
transition is built if there are clauses for its source, its event and its target and the guard is
not set last to text that does not compile; it is the transition that is described.  Otherwise the
errors are those of `Clause.problems`, in that order, and the error of text is among them only if
the text is not replaced: a clause with a later one for the same part leaves no trace.  For all
sequences of steps, the first step that is rejected ends the sequence; if there is none, everything
missing is reported, or the machine that is described is built, with all transitions in order. -/
theorem builds_what_is_set_last [Descriptor S] :
    (∀ cs : List (Clause T S E C),
      ((∃ t, (TransitionDraft.ofClauses cs).build = .ok t) ↔
        Clause.Cover cs .source ∧ Clause.Cover cs .event ∧ Clause.Cover cs .target ∧
          ∀ e, ¬ Clause.EndInBadText cs e) ∧
      (∀ t, (TransitionDraft.ofClauses cs).build = .ok t → Clause.Describe cs t) ∧
      (∀ errors, (TransitionDraft.ofClauses cs).build = .error errors →
        errors = ⟨Clause.problems cs⟩) ∧
      ∀ e, .invalidGuard e ∈ Clause.problems cs ↔ Clause.EndInBadText cs e) ∧
    (∀ (before after : List (Clause T S E C)) (c : Clause T S E C), Clause.Cover after c.part →
      TransitionDraft.ofClauses (before ++ c :: after)
        = TransitionDraft.ofClauses (before ++ after)) ∧
    ∀ rs : List (Registration T S E C X),
      (∀ rejection, MachineDraft.ofRegistrations rs = .error rejection ↔
        rs.findSome? Registration.rejection? = some rejection) ∧
      ∀ d, MachineDraft.ofRegistrations rs = .ok d →
        (Registration.missing rs ≠ [] → d.build = .error ⟨Registration.missing rs⟩) ∧
        (Registration.missing rs = [] → ∃ m, d.build = .ok m ∧ Registration.Describe rs m) := by
  refine ⟨fun cs => ⟨?_, fun t => TransitionDraft.describe_of_build_eq_ok, fun errors h => ?_,
    fun e => Clause.invalidGuard_mem_problems_iff⟩,
    fun before after c => TransitionDraft.ofClauses_replaced,
    fun rs => ⟨fun rejection => MachineDraft.ofRegistrations_eq_error_iff,
      fun d => MachineDraft.build_of_ofRegistrations⟩⟩
  · rw [TransitionDraft.exists_build_ofClauses_eq_ok_iff, Clause.problems_eq_nil_iff]
  · exact (TransitionDraft.build_ofClauses_eq_error_iff.1 h).2.symm

/-- Guard text that does not compile is forgotten when the guard is set again; two of the parts that
the door must have are missing if only access to its state is given. -/
theorem builds_what_is_set_last_door :
    let before : List (Clause Door (Composite Bool 1) Bool Unit) := [.source Door.shut]
    let after : List (Clause Door (Composite Bool 1) Bool Unit) := [.event true, .guard .always]
    let steps : List (Registration Door (Composite Bool 1) Bool Unit EvalError) :=
      [.accessor Door.machine.accessor]
    Clause.Cover after .guard ∧
      (TransitionDraft.ofClauses (before ++ .text "#.open &&" :: after)).build
        = .error ⟨[.missingToState]⟩ ∧
      MachineDraft.ofRegistrations steps = .ok (MachineDraft.collect steps) ∧
      (MachineDraft.collect steps).build = .error ⟨[.missingErrorFactory, .noTransitions]⟩ := by
  intro before after steps
  obtain ⟨-, hreplaced, hsteps⟩ :=
    builds_what_is_set_last (T := Door) (S := Composite Bool 1) (E := Bool) (C := Unit)
      (X := EvalError)
  have hguard : Clause.Cover after .guard := ⟨.guard .always, by simp [after], rfl⟩
  have hok : MachineDraft.ofRegistrations steps = .ok (MachineDraft.collect steps) := rfl
  refine ⟨hguard, ?_, hok, ((hsteps steps).2 _ hok).1 (by decide)⟩
  rw [hreplaced before after (.text "#.open &&") hguard]
  rfl

end GuardedMachine
