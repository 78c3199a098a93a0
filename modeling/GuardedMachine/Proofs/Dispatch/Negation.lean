/-
# A guard and its negation

Two transitions that are guarded by a statement and by its negation decide for every subject
and every context: as long as the statement has an answer, exactly one of them passes, and the
event is never reported as unresolved.  If the statement has no answer, neither has its
negation, and the dispatch fails with the error of the guard that comes first.
-/
import GuardedMachine.Proofs.Dispatch.Outcome
import GuardedMachine.Proofs.Dispatch.Runs
import GuardedMachine.Proofs.Statement.Negation

namespace GuardedMachine

variable {T S E C X : Type}

/-! ## Answers -/

section Answers

variable {σ κ : Type} [HasFields σ] [HasFields κ]

/-- The answer of a statement is the boolean that its expression comes to. -/
lemma Statement.result_holds (s : Statement) (b : Bindings σ κ) :
    (s.holds b).result = (s.expr.evaluate b).result.bind fun
      | .bool answer => .ok answer
      | v => .error (.notBoolean v.kind) := by
  rw [holds, holdsBy, Expr.evaluate, Evaluation.result_bind]
  rcases (s.expr.evaluateBy _ b).result with e | (_ | _ | _ | _) <;> rfl

/-- A negated expression comes to the opposite boolean. -/
lemma Expr.result_evaluate_not (e : Expr) (b : Bindings σ κ) :
    ((Expr.unary .not e).evaluate b).result = (e.evaluate b).result.bind fun
      | .bool answer => .ok (.bool !answer)
      | v => .error (.typeMismatch (.unary .not) .boolean v.kind) := by
  rw [evaluate, evaluate, evaluateBy, Evaluation.result_bind]
  rcases (e.evaluateBy _ b).result with e | (_ | _ | _ | _) <;> rfl

end Answers

namespace Machine

variable [Descriptor S] [DecidableEq E] [HasFields T] [HasFields C]

/-- The candidates are two transitions, in either order. -/
def CandidatesAre (m : Machine T S E C X) (source : S) (event : E) (t u : Transition T S E C) :
    Prop :=
  m.candidates source event = [t, u] ∨ m.candidates source event = [u, t]

variable {m : Machine T S E C X} {source : S} {event : E} {t u : Transition T S E C}
  {subject : T} {context : Option C}

omit [HasFields T] [HasFields C] in
lemma CandidatesAre.symm (h : m.CandidatesAre source event t u) :
    m.CandidatesAre source event u t := Or.symm h

omit [HasFields T] [HasFields C] in
lemma CandidatesAre.mem_iff (h : m.CandidatesAre source event t u) {v : Transition T S E C} :
    v ∈ m.candidates source event ↔ v = t ∨ v = u := by
  rcases h with h | h
  · simp [h]
  · simp [h, or_comm]

/-- If the first of two candidates passes and the other does not, it is the only one. -/
lemma CandidatesAre.filter_passes (h : m.CandidatesAre source event t u)
    (ht : t.answer subject source event context = .ok true)
    (hu : u.answer subject source event context = .ok false) :
    (∀ v ∈ m.candidates source event, ∃ b, v.answer subject source event context = .ok b) ∧
      (m.candidates source event).filter (fun v => v.passes subject source event context)
        = [t] := by
  constructor
  · intro v hv
    rcases h.mem_iff.1 hv with rfl | rfl
    · exact ⟨true, ht⟩
    · exact ⟨false, hu⟩
  · rcases h with h | h <;> simp [h, Transition.passes, ht, hu]

variable [OfEvalError X]

/-- If one of two candidates passes and the other does not, a dispatch that returns moves to the
target of the one that passes, and nothing is reported. -/
lemma CandidatesAre.outcome_of_passes (h : m.CandidatesAre source event t u)
    (ht : t.answer (m.ready subject source event context) source event context = .ok true)
    (hu : u.answer (m.ready subject source event context) source event context = .ok false) :
    let d := m.dispatchFrom subject source event context
    (∀ call ∈ d.calls, call.callee.isReport = false) ∧
      ((∃ message, d.outcome = .panicked message) ∨ d.outcome = .moved t.target) := by
  intro d
  obtain ⟨hok, hpassing⟩ := h.filter_passes ht hu
  refine ⟨fun call hcall => ?_, outcome_of_unique hok hpassing⟩
  rw [Bool.eq_false_iff]
  intro hreport
  obtain ⟨hsubject, -, hlen⟩ := of_mem_dispatchFrom_of_isReport hcall hreport
  rw [hsubject, hpassing] at hlen
  exact hlen rfl

/-- If the guards of both candidates fail, a dispatch that returns gives the error of the one that
comes first, and nothing is reported. -/
lemma CandidatesAre.outcome_of_error (h : m.CandidatesAre source event t u) {e e' : EvalError}
    (ht : t.answer (m.ready subject source event context) source event context = .error e)
    (hu : u.answer (m.ready subject source event context) source event context = .error e') :
    let d := m.dispatchFrom subject source event context
    (∀ call ∈ d.calls, call.callee.isReport = false) ∧
      ((∃ message, d.outcome = .panicked message) ∨
        (m.candidates source event = [t, u] ∧ d.outcome = .failed (OfEvalError.ofEvalError e)) ∨
        (m.candidates source event = [u, t] ∧
          d.outcome = .failed (OfEvalError.ofEvalError e'))) := by
  intro d
  refine ⟨fun call hcall => ?_, ?_⟩
  · rw [Bool.eq_false_iff]
    intro hreport
    obtain ⟨hsubject, hok, -⟩ := of_mem_dispatchFrom_of_isReport hcall hreport
    obtain ⟨b, hb⟩ := hok t (h.mem_iff.2 (Or.inl rfl))
    rw [hsubject, ht] at hb
    cases hb
  · rcases h with h | h
    · exact (outcome_of_first_error h ht).imp_right fun houtcome => Or.inl ⟨h, houtcome⟩
    · exact (outcome_of_first_error h hu).imp_right fun houtcome => Or.inr ⟨h, houtcome⟩

omit [OfEvalError X] [Descriptor S] [DecidableEq E] in
/-- A transition with a statement as its guard answers what the statement answers. -/
lemma answer_of_text {s : Statement} (ht : t.guard = some (.text s)) :
    t.answer subject source event context
      = (s.expr.evaluate ⟨some subject, context⟩).result.bind fun
        | .bool answer => .ok answer
        | v => .error (.notBoolean v.kind) := by
  simp only [Transition.answer, ht]
  exact s.result_holds _

omit [OfEvalError X] [Descriptor S] [DecidableEq E] in
/-- A transition guarded by the negation of an expression gives the opposite answer. -/
lemma answer_of_negated {s : Statement} {e : Expr} (hs : s.expr = .unary .not e)
    (hu : u.guard = some (.text s)) :
    u.answer subject source event context
      = (e.evaluate ⟨some subject, context⟩).result.bind fun
        | .bool answer => .ok !answer
        | v => .error (.typeMismatch (.unary .not) .boolean v.kind) := by
  rw [answer_of_text hu, hs, Expr.result_evaluate_not]
  rcases (e.evaluate ⟨some subject, context⟩).result with e | (_ | _ | _ | _) <;> rfl

/-- **A guard and its negation partition.**  Let a text compile to a statement.  Its body ends
where its last token, the terminator, starts; and between `!(` and `);` the body compiles to the
negated expression, unless that is too deep.  If it compiles, and the two guards are those of
the only candidates for an event in a state, then no dispatch of that event reports it.  Each
one that returns, and all do if no listener panics, moves to the target of the guard that
holds; only if the expression fails, or is no boolean, it fails with an evaluation error. -/
theorem dispatchFrom_negation_partitions (text : String) (s : Statement)
    (h : Statement.compile text = .ok s) :
    let body := Statement.body text
    let negated := "!(" ++ body ++ ");"
    (∃ us blanks, text.toList = body.toList ++ ';' :: blanks ∧
      tokenize 0 text.toList
        = .ok (us ++ [⟨.symbol .semicolon, byteLength body.toList⟩])) ∧
    (Statement.compile negated = .ok ⟨negated, .unary .not s.expr⟩ ∨
      ∃ err, Statement.compile negated = .error err ∧ err.fault.error = .tooDeep) ∧
    ∀ s', Statement.compile negated = .ok s' → ∀ (T S E C X : Type) [Descriptor S]
      [DecidableEq E] [HasFields T] [HasFields C] [OfEvalError X] (m : Machine T S E C X)
      (source : S) (event : E) (t u : Transition T S E C),
      t.guard = some (.text s) → u.guard = some (.text s') →
      m.CandidatesAre source event t u → ∀ (subject : T) (context : Option C),
        let d := m.dispatchFrom subject source event context
        let ready := m.ready subject source event context
        (∀ call ∈ d.calls, call.callee.isReport = false) ∧
        (m.Returns → ∀ message, d.outcome ≠ .panicked message) ∧
        ((∃ message, d.outcome = .panicked message) ∨
          match (s.expr.evaluate ⟨some ready, context⟩).result with
          | .ok (.bool true) => d.outcome = .moved t.target
          | .ok (.bool false) => d.outcome = .moved u.target
          | .ok v =>
            (m.candidates source event = [t, u] ∧
              d.outcome = .failed (OfEvalError.ofEvalError (.notBoolean v.kind))) ∨
            (m.candidates source event = [u, t] ∧
              d.outcome = .failed
                (OfEvalError.ofEvalError (.typeMismatch (.unary .not) .boolean v.kind)))
          | .error e => d.outcome = .failed (OfEvalError.ofEvalError e)) := by
  intro body negated
  have hcompile := Statement.compile_negated h
  refine ⟨?_, hcompile, ?_⟩
  · obtain ⟨us, o, n, htokens, -⟩ := Statement.exists_derives_of_compile h
    obtain ⟨ho, ⟨blanks, htext, -⟩, -⟩ := Statement.body_spec htokens
    rw [ho] at htokens
    exact ⟨us, blanks, htext, htokens⟩
  · intro s' hs' T S E C X _ _ _ _ _ m source event t u ht hu hcandidates subject context d ready
    have hnegation : s'.expr = .unary .not s.expr := by
      rcases hcompile with hok | ⟨err, herror, -⟩
      · rw [Except.ok.inj (hs'.symm.trans hok)]
      · cases hs'.symm.trans herror
    have htanswer : t.answer ready source event context = _ := answer_of_text ht
    have huanswer : u.answer ready source event context = _ := answer_of_negated hnegation hu
    have hreturns : m.Returns → ∀ message, d.outcome ≠ .panicked message := by
      intro hm message hpanic
      rcases dispatchFrom_moves_or_fails hm subject source event context with
        ⟨v, -, -, -, houtcome, -⟩ | ⟨error, houtcome, -⟩
      · cases houtcome.symm.trans hpanic
      · cases houtcome.symm.trans hpanic
    rcases hvalue : (s.expr.evaluate ⟨some ready, context⟩).result with
      e | (_ | (_ | _) | _ | _) <;> rw [hvalue] at htanswer huanswer
    case error =>
      obtain ⟨hreports, houtcome⟩ := hcandidates.outcome_of_error htanswer huanswer
      refine ⟨hreports, hreturns, houtcome.imp_right ?_⟩
      rintro (⟨-, houtcome⟩ | ⟨-, houtcome⟩)
      · exact houtcome
      · exact houtcome
    case ok.bool.true =>
      obtain ⟨hreports, houtcome⟩ := hcandidates.outcome_of_passes htanswer huanswer
      exact ⟨hreports, hreturns, houtcome⟩
    case ok.bool.false =>
      obtain ⟨hreports, houtcome⟩ := hcandidates.symm.outcome_of_passes huanswer htanswer
      exact ⟨hreports, hreturns, houtcome⟩
    -- the value is no boolean
    all_goals
      obtain ⟨hreports, houtcome⟩ := hcandidates.outcome_of_error htanswer huanswer
      exact ⟨hreports, hreturns, houtcome⟩

/-- A door that opens if it was rung, or if a note says so, and stays shut if not. -/
theorem dispatchFrom_negation_partitions_note :
    let text := "#.rung || #.note == \"\\\";)\" ;"
    let negated := "!(#.rung || #.note == \"\\\";)\" );"
    let e : Expr := .binary (.logic .or) (.path ⟨.subject, ["rung"]⟩)
      (.binary (.equality .equal) (.path ⟨.subject, ["note"]⟩) (.literal (.string "\";)")))
    let m := { Door.machine with
      transitions := [⟨Door.shut, true, Door.shut, some (.text ⟨negated, .unary .not e⟩)⟩,
        ⟨Door.shut, true, Door.opened, some (.text ⟨text, e⟩)⟩] }
    Statement.compile text = .ok ⟨text, e⟩ ∧
    Statement.compile negated = .ok ⟨negated, .unary .not e⟩ ∧
    (m.dispatchFrom ⟨Door.shut, false⟩ Door.shut true none).outcome = .moved Door.opened := by
  intro text negated e m
  have htext : Statement.compile text = .ok ⟨text, e⟩ := by decide +kernel
  have hnegated : Statement.compile negated = .ok ⟨negated, .unary .not e⟩ := by decide +kernel
  have hbody : "!(" ++ Statement.body text ++ ");" = negated := by decide +kernel
  have hcandidates : m.candidates Door.shut true = m.transitions := by cbv
  obtain ⟨-, -, hpartition⟩ := dispatchFrom_negation_partitions text ⟨text, e⟩ htext
  obtain ⟨-, hreturns, houtcome⟩ := hpartition ⟨negated, .unary .not e⟩ (hbody ▸ hnegated) _ _ _ _ _
    m Door.shut true _ _ rfl rfl (Or.inr hcandidates) ⟨Door.shut, false⟩ none
  refine ⟨htext, hnegated, ?_⟩
  rcases houtcome with ⟨message, hpanic⟩ | houtcome
  · exact absurd hpanic (hreturns Door.machine_returns message)
  · exact houtcome

end Machine

end GuardedMachine
