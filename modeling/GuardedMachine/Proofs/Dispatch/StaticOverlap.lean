/-
# Ambiguity seen in the table

Whether an event can be ambiguous is mostly up to the guards.  For composite states there is a
test that looks at the table of transitions alone: if the sources of no two transitions for one
event overlap, then a state without open slots has at most one candidate, since two candidates
overlap the state and therefore each other.  The test is exact, since two sources that overlap
describe a state in common.

It says nothing about states with open slots, through which sources that do not overlap each
other can meet.
-/
import GuardedMachine.Proofs.Dispatch.Outcome
import GuardedMachine.Proofs.State.Overlap

namespace GuardedMachine

variable {T L E C X : Type} {n : Nat} [DecidableEq L] [DecidableEq E]

namespace Machine

/-- The sources of any two transitions for the same event do not overlap. -/
def SourcesDisjoint (m : Machine T (Composite L n) E C X) : Prop :=
  m.transitions.Pairwise fun t u => t.event = u.event → overlaps t.source u.source = false

instance (m : Machine T (Composite L n) E C X) : Decidable m.SourcesDisjoint :=
  inferInstanceAs (Decidable (List.Pairwise _ _))

variable {m : Machine T (Composite L n) E C X} {source : Composite L n} {event : E}

/-- Two candidates for an event in a concrete state are in conflict. -/
lemma overlaps_of_candidates (hsource : isConcrete source = true)
    {t u : Transition T (Composite L n) E C} (ht : t.appliesTo source event = true)
    (hu : u.appliesTo source event = true) :
    t.event = u.event ∧ overlaps t.source u.source = true := by
  simp only [Transition.appliesTo, Bool.and_eq_true, decide_eq_true_eq] at ht hu
  obtain ⟨htevent, htsource⟩ := ht
  obtain ⟨huevent, husource⟩ := hu
  exact ⟨htevent.trans huevent.symm, Composite.overlaps_of_concrete hsource htsource husource⟩

/-- If no sources overlap, a concrete state has at most one candidate. -/
lemma length_candidates_le_one (hm : m.SourcesDisjoint) (hsource : isConcrete source = true) :
    (m.candidates source event).length ≤ 1 := by
  have happlies : ∀ t ∈ m.candidates source event, t.appliesTo source event = true :=
    fun _ => appliesTo_of_mem_candidates
  have hdisjoint := hm.sublist (List.filter_sublist (p := fun t => t.appliesTo source event))
  rcases hcandidates : m.candidates source event with _ | ⟨t, _ | ⟨u, rest⟩⟩
  · exact Nat.zero_le 1
  · exact Nat.le_refl 1
  · -- two candidates would be in conflict
    exfalso
    rw [hcandidates] at happlies
    rw [show m.transitions.filter _ = _ from hcandidates] at hdisjoint
    obtain ⟨hevent, hoverlaps⟩ :=
      overlaps_of_candidates hsource (happlies t (by simp)) (happlies u (by simp))
    have hnot := (List.pairwise_cons.1 hdisjoint).1 u (by simp) hevent
    rw [hoverlaps] at hnot
    cases hnot

/-- Two transitions for an event whose sources overlap are candidates together. -/
lemma exists_candidates_of_overlaps [Nonempty L] {t u : Transition T (Composite L n) E C}
    (hsub : [t, u].Sublist m.transitions) (hevent : t.event = u.event)
    (h : overlaps t.source u.source = true) :
    ∃ source : Composite L n, isConcrete source = true ∧
      [t, u].Sublist (m.candidates source t.event) := by
  obtain ⟨source, hsource, ht, hu⟩ := Composite.exists_concrete_of_overlaps h
  refine ⟨source, hsource, ?_⟩
  have htapplies : t.appliesTo source t.event = true := by simp [Transition.appliesTo, ht]
  have huapplies : u.appliesTo source t.event = true := by
    simp [Transition.appliesTo, hu, hevent]
  have hfilter := hsub.filter fun v => v.appliesTo source t.event
  simp only [List.filter_cons, htapplies, huapplies, if_true, List.filter_nil] at hfilter
  exact hfilter

variable [HasFields T] [HasFields C] [OfEvalError X]

/-- With at most one candidate, an event is reported only because that candidate refuses. -/
lemma answer_of_isReport {subject : T} {context : Option C}
    (hlen : (m.candidates source event).length ≤ 1)
    {call : Call T (Composite L n) E C X}
    (hcall : call ∈ (m.dispatchFrom subject source event context).calls)
    (hreport : call.callee.isReport = true) {t : Transition T (Composite L n) E C}
    (ht : t ∈ m.candidates source event) :
    t.answer call.subject source event context = .ok false := by
  obtain ⟨-, hok, hpassing⟩ := of_mem_dispatchFrom_of_isReport hcall hreport
  obtain ⟨passes, hanswer⟩ := hok t ht
  have hcandidates : m.candidates source event = [t] := by
    have hpos := List.length_pos_of_mem ht
    obtain ⟨u, hu⟩ := List.length_eq_one_iff.1 (by omega : (m.candidates source event).length = 1)
    rw [hu, List.mem_singleton] at ht
    rw [hu, ht]
  cases passes with
  | false => exact hanswer
  | true =>
    refine absurd ?_ hpassing
    simp [hcandidates, Transition.passes, hanswer]

/-- **The static test for ambiguity.**  If the sources of no two transitions for the same event
overlap, then in a state without open slots every event has at most one candidate: at most one
guard is asked, and if the event is reported as unresolved, then not because of ambiguity, but
because every candidate has refused.  Conversely, if the sources of two transitions for the same
event overlap, both are candidates in some state without open slots. -/
theorem sourcesDisjoint_rules_out_ambiguity (m : Machine T (Composite L n) E C X) :
    (m.SourcesDisjoint → ∀ (subject : T) (source : Composite L n) (event : E)
      (context : Option C), isConcrete source = true →
        let d := m.dispatchFrom subject source event context
        (m.candidates source event).length ≤ 1 ∧
        (d.calls.filter fun call => call.callee.isGuard).length ≤ 1 ∧
        ∀ call ∈ d.calls, call.callee.isReport = true →
          ∀ t ∈ m.candidates source event,
            t.answer call.subject source event context = .ok false) ∧
    (Nonempty L → ∀ t u : Transition T (Composite L n) E C,
      [t, u].Sublist m.transitions → t.event = u.event → overlaps t.source u.source = true →
        ∃ source : Composite L n, isConcrete source = true ∧
          [t, u].Sublist (m.candidates source t.event)) := by
  constructor
  · intro hdisjoint subject source event context hsource d
    have hlen : (m.candidates source event).length ≤ 1 :=
      length_candidates_le_one hdisjoint hsource
    have hguards := m.length_filter_isGuard_dispatchFrom_le subject source event context
    refine ⟨hlen, Nat.le_trans hguards hlen, ?_⟩
    intro call hcall hreport t ht
    exact answer_of_isReport hlen hcall hreport ht
  · intro _ t u hsub hevent h
    exact exists_candidates_of_overlaps hsub hevent h

/-- The door without its last transition passes the test; with it, an open door can be pulled
in two ways. -/
theorem sourcesDisjoint_rules_out_ambiguity_door :
    let pushOrPull := { Door.machine with transitions := Door.machine.transitions.take 2 }
    (pushOrPull.SourcesDisjoint ∧ isConcrete Door.opened = true ∧
      (pushOrPull.candidates Door.opened false).length ≤ 1) ∧
    ∃ source : Composite Bool 1, isConcrete source = true ∧
      (Door.machine.transitions.drop 1).Sublist (Door.machine.candidates source false) := by
  intro pushOrPull
  have hdisjoint : pushOrPull.SourcesDisjoint := by decide +kernel
  have hopened : isConcrete Door.opened = true := by cbv
  refine ⟨⟨hdisjoint, hopened, ?_⟩, ?_⟩
  · exact ((sourcesDisjoint_rules_out_ambiguity pushOrPull).1 hdisjoint ⟨Door.opened, false⟩
      Door.opened false none hopened).1
  · exact (sourcesDisjoint_rules_out_ambiguity Door.machine).2 ⟨true⟩ _ _
      (List.sublist_cons_self _ _) rfl (by cbv)

/-- A state with an open slot is ambiguous in a table that passes the test. -/
example :
    let flip := { Door.machine with
      transitions := [.plain Door.shut true Door.opened, .plain Door.opened true Door.shut] }
    flip.SourcesDisjoint ∧ (flip.candidates ⟨#v[none]⟩ true).length = 2 := by
  decide +kernel

end Machine

end GuardedMachine
