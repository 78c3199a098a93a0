/-
# What an evaluation reads

A path can occur in an expression more than once, so what an evaluation reads is told by places:
the ways from the root of the expression to its occurrences of paths.  Evaluation goes through
the places from left to right, and it gets to a place unless a connective above was decided by
its left operand, or an error came before.  The occurrences it gets to are the ones that it
resolves, each once and in order, and what they resolve to settles the whole evaluation.

All binary operators are evaluated in one way here: when the left operand has been evaluated, the
operator fails, is decided, or goes on with the right operand (`BinaryOp.halfway`).
-/
import GuardedMachine.Fields.Json
import GuardedMachine.Proofs.Expr.Paths

namespace GuardedMachine

/-! ## Binary operators in one form -/

/-- Where the evaluation of a binary operator stands when its left operand has been evaluated. -/
inductive Halfway
  /-- The left operand failed, or the operator refuses it. -/
  | fails (error : EvalError)
  /-- The left operand gives the value already. -/
  | decided (v : Value)
  /-- The right operand is evaluated next. -/
  | goesOn (v : Value)

namespace BinaryOp

/-- Where an operator stands after its left operand. -/
def halfway (op : BinaryOp) (left : Except EvalError Value) : Halfway :=
  match left with
  | .error error => .fails error
  | .ok v =>
    match op with
    | .arith _ | .order _ =>
      match (Operator.binary op).expectDecimal v with
      | .error error => .fails error
      | .ok _ => .goesOn v
    | .equality _ => .goesOn v
    | .logic connective =>
      match (Operator.binary op).expectBool v with
      | .error error => .fails error
      | .ok x => if x = connective.decider then .decided v else .goesOn v

/-- The value of an operator that went on, from the values of both operands. -/
def combine (op : BinaryOp) (v w : Value) : Except EvalError Value :=
  match op with
  | .arith arithOp => do
    let x ← (Operator.binary op).expectDecimal v
    let y ← (Operator.binary op).expectDecimal w
    (arithOp.apply x y).map .decimal
  | .order orderOp => do
    let x ← (Operator.binary op).expectDecimal v
    let y ← (Operator.binary op).expectDecimal w
    .ok (.bool (orderOp.holds x y))
  | .equality equalityOp => .ok (.bool (equalityOp.holds v w))
  | .logic _ => ((Operator.binary op).expectBool w).map .bool

/-- Only a connective is decided halfway, and only by its decider. -/
lemma halfway_eq_decided_iff {op : BinaryOp} {left : Except EvalError Value} :
    (∃ v, op.halfway left = .decided v) ↔
      ∃ connective, op = .logic connective ∧ left = .ok (.bool connective.decider) := by
  rcases left with error | v
  · simp [halfway]
  · cases op with
    | arith | order | equality => cases v <;> simp [halfway, Operator.expectDecimal]
    | logic connective =>
      cases v with
      | bool x => by_cases hx : x = connective.decider <;> simp [halfway, Operator.expectBool, hx]
      | null | decimal | string => simp [halfway, Operator.expectBool]

/-- An operator that does not fail after its left operand has a value there. -/
lemma exists_ok_of_halfway_ne_fails {op : BinaryOp} {left : Except EvalError Value}
    (h : ∀ error, op.halfway left ≠ .fails error) : ∃ v, left = .ok v := by
  rcases left with error | v
  · exact absurd rfl (h error)
  · exact ⟨v, rfl⟩

end BinaryOp

/-- To go on without resolving a path adds nothing to what was resolved before. -/
lemma Evaluation.bind_ofResult {α β : Type} (x : Evaluation α) (f : α → Except EvalError β) :
    (x >>= fun a => ofResult (f a)) = ⟨x.resolved, x.result.bind f⟩ := by
  rcases x with ⟨resolved, error | a⟩
  · rfl
  · exact congrArg (fun paths => (⟨paths, f a⟩ : Evaluation β)) (List.append_nil resolved)

namespace Expr

variable {σ κ σ' κ' : Type} [HasFields σ] [HasFields κ] [HasFields σ'] [HasFields κ']

lemma evaluate_unary (b : Bindings σ κ) (op : UnaryOp) (operand : Expr) :
    (unary op operand).evaluate b =
      ⟨(operand.evaluate b).resolved, (operand.evaluate b).result.bind op.apply⟩ := by
  rw [evaluate, evaluate, evaluateBy, Evaluation.bind_ofResult]

/-- Every binary operator is evaluated by the same steps. -/
lemma evaluate_binary_eq_bind (b : Bindings σ κ) (op : BinaryOp) (left right : Expr) :
    (binary op left right).evaluate b = left.evaluate b >>= fun v =>
      match op.halfway (.ok v) with
      | .fails error => .fail error
      | .decided v => pure v
      | .goesOn v => right.evaluate b >>= fun w => .ofResult (op.combine v w) := by
  cases op with
  | equality op => rfl
  | arith op | order op =>
    refine congrArg (left.evaluate b >>= ·) (funext fun v => ?_)
    cases v with
    | decimal x =>
      refine congrArg (right.evaluate b >>= ·) (funext fun w => ?_)
      cases w <;> rfl
    | null | bool | string => rfl
  | logic op =>
    refine congrArg (left.evaluate b >>= ·) (funext fun v => ?_)
    cases v with
    | bool x =>
      by_cases hx : x = op.decider
      · simp [BinaryOp.halfway, Operator.expectBool, Evaluation.ofResult, Evaluation.bind_eq,
          Evaluation.andThen, Evaluation.pure_eq, hx]
      · simp only [BinaryOp.halfway, Operator.expectBool, if_neg hx]
        refine Eq.trans (if_neg hx) (congrArg (right.evaluate b >>= ·) (funext fun w => ?_))
        cases w <;> rfl
    | null | decimal | string => rfl

lemma evaluate_binary (b : Bindings σ κ) (op : BinaryOp) (left right : Expr) :
    (binary op left right).evaluate b =
      match op.halfway (left.evaluate b).result with
      | .fails error => ⟨(left.evaluate b).resolved, .error error⟩
      | .decided v => ⟨(left.evaluate b).resolved, .ok v⟩
      | .goesOn v => ⟨(left.evaluate b).resolved ++ (right.evaluate b).resolved,
          (right.evaluate b).result.bind (op.combine v)⟩ := by
  rw [evaluate_binary_eq_bind]
  rcases left.evaluate b with ⟨resolved, error | v⟩
  · rfl
  · rw [Evaluation.bind_eq, Evaluation.andThen]
    dsimp only
    cases op.halfway (.ok v) with
    | fails error => simp [Evaluation.fail]
    | decided v => simp [Evaluation.pure_eq]
    | goesOn v => simp only [Evaluation.bind_ofResult]

/-! ## Places -/

/-- The way from an operator to one of its operands. -/
inductive Turn
  | operand
  | left
  | right
deriving DecidableEq, Repr

/-- A path that occurs in an expression, with the way from the root to it. -/
structure Occurrence where
  /-- The way from the root. -/
  place : List Turn
  /-- The path that occurs there. -/
  path : Path
deriving DecidableEq, Repr

/-- The occurrence as seen from one operator above. -/
def Occurrence.under (turn : Turn) (o : Occurrence) : Occurrence := ⟨turn :: o.place, o.path⟩

/-- The subexpression at a place. -/
def at? : Expr → List Turn → Option Expr
  | e, [] => some e
  | .unary _ operand, .operand :: rest => operand.at? rest
  | .binary _ left _, .left :: rest => left.at? rest
  | .binary _ _ right, .right :: rest => right.at? rest
  | _, _ :: _ => none

/-- The occurrences of paths in an expression, from left to right. -/
def occurrences : Expr → List Occurrence
  | .literal _ => []
  | .path p => [⟨[], p⟩]
  | .unary _ operand => operand.occurrences.map (.under .operand)
  | .binary _ left right =>
    left.occurrences.map (.under .left) ++ right.occurrences.map (.under .right)

/-- A place is in the left operand, and the other in the right operand, of one operator. -/
def LeftOf (p q : List Turn) : Prop :=
  ∃ above rest rest', p = above ++ .left :: rest ∧ q = above ++ .right :: rest'

lemma mem_map_under_iff {turn : Turn} {occurrences : List Occurrence} {place : List Turn}
    {p : Path} : (⟨place, p⟩ : Occurrence) ∈ occurrences.map (.under turn) ↔
      ∃ rest, place = turn :: rest ∧ (⟨rest, p⟩ : Occurrence) ∈ occurrences := by
  rw [List.mem_map]
  constructor
  · rintro ⟨⟨rest, q⟩, ho, heq⟩
    obtain ⟨rfl, rfl⟩ := Occurrence.mk.inj heq
    exact ⟨rest, rfl, ho⟩
  · rintro ⟨rest, rfl, ho⟩
    exact ⟨⟨rest, p⟩, ho, rfl⟩

/-- The occurrences are the places where a path is. -/
lemma mem_occurrences_iff {e : Expr} {place : List Turn} {p : Path} :
    ⟨place, p⟩ ∈ e.occurrences ↔ e.at? place = some (.path p) := by
  induction e generalizing place with
  | literal v => cases place <;> simp [occurrences, at?]
  | path q => cases place <;> simp [occurrences, at?, eq_comm]
  | unary op operand ih =>
    rw [occurrences, mem_map_under_iff]
    rcases place with _ | ⟨_ | _ | _, rest⟩ <;> simp [at?, ih]
  | binary op left right ihl ihr =>
    rw [occurrences, List.mem_append, mem_map_under_iff, mem_map_under_iff]
    rcases place with _ | ⟨_ | _ | _, rest⟩ <;> simp [at?, ihl, ihr]

lemma map_path_under (turn : Turn) (occurrences : List Occurrence) :
    (occurrences.map (.under turn)).map Occurrence.path = occurrences.map Occurrence.path :=
  List.map_map

/-- The paths of the occurrences are the paths of the expression. -/
lemma map_path_occurrences (e : Expr) : e.occurrences.map Occurrence.path = e.paths := by
  induction e with
  | literal v => rfl
  | path p => rfl
  | unary op operand ih => rw [occurrences, map_path_under, ih, paths]
  | binary op left right ihl ihr =>
    rw [occurrences, List.map_append, map_path_under, map_path_under, ihl, ihr, paths]

lemma leftOf_cons_iff {t u : Turn} {p q : List Turn} :
    LeftOf (t :: p) (u :: q) ↔ (t = .left ∧ u = .right) ∨ (t = u ∧ LeftOf p q) := by
  constructor
  · rintro ⟨_ | ⟨turn, above⟩, rest, rest', hp, hq⟩
    · exact Or.inl ⟨(List.cons.inj hp).1, (List.cons.inj hq).1⟩
    · rw [List.cons_append, List.cons.injEq] at hp hq
      exact Or.inr ⟨hp.1.trans hq.1.symm, above, rest, rest', hp.2, hq.2⟩
  · rintro (⟨rfl, rfl⟩ | ⟨rfl, above, rest, rest', rfl, rfl⟩)
    · exact ⟨[], p, q, rfl, rfl⟩
    · exact ⟨t :: above, rest, rest', rfl, rfl⟩

lemma not_leftOf_nil_left {q : List Turn} : ¬ LeftOf [] q := by
  rintro ⟨above, rest, rest', hp, -⟩
  exact List.append_ne_nil_of_right_ne_nil above (List.cons_ne_nil _ _) hp.symm

lemma not_leftOf_nil_right {p : List Turn} : ¬ LeftOf p [] := by
  rintro ⟨above, rest, rest', -, hq⟩
  exact List.append_ne_nil_of_right_ne_nil above (List.cons_ne_nil _ _) hq.symm

/-- The occurrences are listed from left to right. -/
lemma pairwise_leftOf_occurrences (e : Expr) :
    e.occurrences.Pairwise fun o o' => LeftOf o.place o'.place := by
  induction e with
  | literal v => exact List.Pairwise.nil
  | path p => exact List.pairwise_singleton _ _
  | unary op operand ih =>
    rw [occurrences, List.pairwise_map]
    exact ih.imp fun h => leftOf_cons_iff.2 (Or.inr ⟨rfl, h⟩)
  | binary op left right ihl ihr =>
    rw [occurrences, List.pairwise_append, List.pairwise_map, List.pairwise_map]
    refine ⟨ihl.imp fun h => leftOf_cons_iff.2 (Or.inr ⟨rfl, h⟩),
      ihr.imp fun h => leftOf_cons_iff.2 (Or.inr ⟨rfl, h⟩), fun o ho o' ho' => ?_⟩
    obtain ⟨_, -, rfl⟩ := List.mem_map.1 ho
    obtain ⟨_, -, rfl⟩ := List.mem_map.1 ho'
    exact leftOf_cons_iff.2 (Or.inl ⟨rfl, rfl⟩)

/-! ## The places that evaluation gets to -/

/-- Whether evaluation gets to a place: past an operator it goes into the left operand, and into
the right one if the left one leaves the operator to go on. -/
def reaches (b : Bindings σ κ) : Expr → List Turn → Bool
  | _, [] => true
  | .unary _ operand, .operand :: rest => operand.reaches b rest
  | .binary _ left _, .left :: rest => left.reaches b rest
  | .binary op left right, .right :: rest =>
    match op.halfway (left.evaluate b).result with
    | .goesOn _ => right.reaches b rest
    | _ => false
  | _, _ :: _ => false

/-- The occurrences that evaluation gets to. -/
def readBy (b : Bindings σ κ) (e : Expr) : List Occurrence :=
  e.occurrences.filter fun o => e.reaches b o.place

/-- The place of an error below, or else the root if the result is an error. -/
def errorPlace (below : Option (List Turn)) (result : Except EvalError Value) :
    Option (List Turn) :=
  match below, result with
  | some place, _ => some place
  | none, .error _ => some []
  | none, .ok _ => none

/-- The place where the first error arises: an operand whose value the operator refuses before it
looks at the other one, or else the innermost subexpression that fails. -/
def firstError? (b : Bindings σ κ) : Expr → Option (List Turn)
  | .literal _ => none
  | .path p => errorPlace none (b.resolve p)
  | .unary op operand =>
    errorPlace ((operand.firstError? b).map (.operand :: ·)) ((unary op operand).evaluate b).result
  | .binary op left right =>
    match op.halfway (left.evaluate b).result with
    | .fails _ => some (.left :: (left.firstError? b).getD [])
    | .decided _ => none
    | .goesOn _ =>
      errorPlace ((right.firstError? b).map (.right :: ·))
        ((binary op left right).evaluate b).result

/-- A place in the right operand of a connective that was decided by its left operand. -/
def ShortCircuited (b : Bindings σ κ) (e : Expr) (place : List Turn) : Prop :=
  ∃ above rest connective left right, place = above ++ .right :: rest ∧
    e.reaches b above = true ∧ e.at? above = some (.binary (.logic connective) left right) ∧
    (left.evaluate b).result = .ok (.bool connective.decider)

/-- A place to the right of the place where the first error arises. -/
def AfterError (b : Bindings σ κ) (e : Expr) (place : List Turn) : Prop :=
  ∃ error, e.firstError? b = some error ∧ LeftOf error place

/-- The error of an expression arises at a place: evaluation gets there, and the subexpression
there fails with the error, or it is a left operand whose value the operator refuses with the
error. -/
def ErrorArises (b : Bindings σ κ) (e : Expr) (place : List Turn) : Prop :=
  e.reaches b place = true ∧ ∃ error, (e.evaluate b).result = .error error ∧
    ((∃ x, e.at? place = some x ∧ (x.evaluate b).result = .error error) ∨
      ∃ above op left right v, place = above ++ [.left] ∧
        e.at? above = some (.binary op left right) ∧ (left.evaluate b).result = .ok v ∧
        op.halfway (.ok v) = .fails error)

section Reads

variable {b : Bindings σ κ}

lemma mem_readBy_iff {e : Expr} {o : Occurrence} :
    o ∈ e.readBy b ↔ o ∈ e.occurrences ∧ e.reaches b o.place = true :=
  List.mem_filter

lemma readBy_unary (op : UnaryOp) (operand : Expr) :
    (unary op operand).readBy b = (operand.readBy b).map (.under .operand) := by
  rw [readBy, occurrences, List.filter_map, readBy]
  rfl

lemma readBy_binary (op : BinaryOp) (left right : Expr) :
    (binary op left right).readBy b = (left.readBy b).map (.under .left) ++
      match op.halfway (left.evaluate b).result with
      | .goesOn _ => (right.readBy b).map (.under .right)
      | _ => [] := by
  rw [readBy, occurrences, List.filter_append, List.filter_map, List.filter_map, readBy]
  refine congrArg _ ?_
  cases hhalfway : op.halfway (left.evaluate b).result with
  | goesOn v =>
    rw [readBy]
    refine congrArg _ (List.filter_congr fun o _ => ?_)
    simp only [Function.comp, Occurrence.under, reaches, hhalfway]
  | fails | decided =>
    simp [Function.comp_def, Occurrence.under, reaches, hhalfway]

/-- What is resolved is what evaluation gets to. -/
lemma resolved_eq_readBy (e : Expr) :
    (e.evaluate b).resolved = (e.readBy b).map Occurrence.path := by
  induction e with
  | literal v => rfl
  | path p => rfl
  | unary op operand ih => rw [evaluate_unary, readBy_unary, map_path_under, ih]
  | binary op left right ihl ihr =>
    rw [evaluate_binary, readBy_binary, List.map_append, map_path_under, ← ihl]
    cases op.halfway (left.evaluate b).result with
    | fails error => exact (List.append_nil _).symm
    | decided v => exact (List.append_nil _).symm
    | goesOn v =>
      dsimp only
      rw [map_path_under, ihr]

/-- Evaluation depends on what it reads only, and so does what it reads. -/
lemma evaluate_eq_of_readBy {b' : Bindings σ' κ'} {e : Expr}
    (h : ∀ o ∈ e.readBy b, b'.resolve o.path = b.resolve o.path) :
    e.evaluate b' = e.evaluate b ∧ e.readBy b' = e.readBy b := by
  induction e with
  | literal v => exact ⟨rfl, rfl⟩
  | path p =>
    have hp : b'.resolve p = b.resolve p := h ⟨[], p⟩ (List.mem_singleton_self _)
    exact ⟨by rw [evaluate, evaluate, evaluateBy, evaluateBy, hp], rfl⟩
  | unary op operand ih =>
    rw [readBy_unary, List.forall_mem_map] at h
    obtain ⟨hevaluate, hread⟩ := ih h
    rw [evaluate_unary, evaluate_unary, readBy_unary, readBy_unary, hevaluate, hread]
    exact ⟨rfl, rfl⟩
  | binary op left right ihl ihr =>
    rw [readBy_binary, List.forall_mem_append, List.forall_mem_map] at h
    obtain ⟨hevaluate, hread⟩ := ihl h.1
    rw [evaluate_binary, evaluate_binary, readBy_binary, readBy_binary, hevaluate, hread]
    cases hhalfway : op.halfway (left.evaluate b).result with
    | fails error => exact ⟨rfl, rfl⟩
    | decided v => exact ⟨rfl, rfl⟩
    | goesOn v =>
      have hright := h.2
      rw [hhalfway] at hright
      obtain ⟨hevaluate', hread'⟩ := ihr (List.forall_mem_map.1 hright)
      rw [hevaluate', hread']
      exact ⟨rfl, rfl⟩

/-! ## The first error -/

lemma errorPlace_eq_none_iff {below : Option (List Turn)} {result : Except EvalError Value} :
    errorPlace below result = none ↔ below = none ∧ ∃ v, result = .ok v := by
  rcases below with _ | place <;> rcases result with error | v <;> simp [errorPlace]

lemma exists_ok_of_bind_ok {x : Except EvalError Value} {f : Value → Except EvalError Value}
    {v : Value} (h : x.bind f = .ok v) : ∃ w, x = .ok w := by
  rcases x with error | w
  · cases h
  · exact ⟨w, rfl⟩

/-- An error arises somewhere exactly when there is no value. -/
lemma firstError?_eq_none_iff {e : Expr} :
    e.firstError? b = none ↔ ∃ v, (e.evaluate b).result = .ok v := by
  induction e with
  | literal v => exact ⟨fun _ => ⟨v, rfl⟩, fun _ => rfl⟩
  | path p =>
    rw [firstError?, errorPlace_eq_none_iff]
    exact and_iff_right rfl
  | unary op operand ih =>
    rw [firstError?, errorPlace_eq_none_iff, Option.map_eq_none_iff, ih]
    refine and_iff_right_of_imp fun ⟨v, hv⟩ => ?_
    rw [evaluate_unary] at hv
    exact exists_ok_of_bind_ok hv
  | binary op left right ihl ihr =>
    rw [firstError?]
    cases hhalfway : op.halfway (left.evaluate b).result with
    | fails error => simp [evaluate_binary, hhalfway]
    | decided v => simp [evaluate_binary, hhalfway]
    | goesOn v =>
      dsimp only
      rw [errorPlace_eq_none_iff, Option.map_eq_none_iff, ihr]
      refine and_iff_right_of_imp fun ⟨w, hw⟩ => ?_
      rw [evaluate_binary, hhalfway] at hw
      exact exists_ok_of_bind_ok hw

lemma errorPlace_eq_some_iff {below : Option (List Turn)} {result : Except EvalError Value}
    {place : List Turn} : errorPlace below result = some place ↔
      below = some place ∨ below = none ∧ place = [] ∧ ∃ error, result = .error error := by
  rcases below with _ | q <;> rcases result with error | v <;> simp [errorPlace, eq_comm]

lemma ErrorArises.root {e : Expr} {error : EvalError} (h : (e.evaluate b).result = .error error) :
    ErrorArises b e [] :=
  ⟨by rw [reaches], error, h, Or.inl ⟨e, by rw [at?], h⟩⟩

/-- An error that an operator passes on from an operand arises in the operand. -/
lemma ErrorArises.under {e x : Expr} {turn : Turn} {place : List Turn}
    (h : ErrorArises b x place) (hat : ∀ rest, e.at? (turn :: rest) = x.at? rest)
    (hreaches : ∀ rest, e.reaches b (turn :: rest) = x.reaches b rest)
    (hresult : ∀ error, (x.evaluate b).result = .error error →
      (e.evaluate b).result = .error error) : ErrorArises b e (turn :: place) := by
  obtain ⟨hplace, error, herror, hsource⟩ := h
  refine ⟨(hreaches place).trans hplace, error, hresult error herror, ?_⟩
  rcases hsource with ⟨y, hy, hfails⟩ | ⟨above, op, left, right, v, rfl, habove, hleft, hhalfway⟩
  · exact Or.inl ⟨y, (hat place).trans hy, hfails⟩
  · exact Or.inr ⟨turn :: above, op, left, right, v, rfl, (hat above).trans habove, hleft, hhalfway⟩

/-- The first error arises where it is said to. -/
lemma errorArises_of_firstError? {e : Expr} {place : List Turn}
    (h : e.firstError? b = some place) : ErrorArises b e place := by
  induction e generalizing place with
  | literal v => cases h
  | path p =>
    rw [firstError?, errorPlace_eq_some_iff] at h
    obtain h | ⟨-, rfl, error, herror⟩ := h
    · cases h
    · exact ErrorArises.root herror
  | unary op operand ih =>
    rw [firstError?, errorPlace_eq_some_iff, Option.map_eq_some_iff] at h
    obtain ⟨rest, hrest, rfl⟩ | ⟨-, rfl, error, herror⟩ := h
    · refine (ih hrest).under (fun _ => rfl) (fun _ => rfl) fun error herror => ?_
      rw [evaluate_unary, herror]
      rfl
    · exact ErrorArises.root herror
  | binary op left right ihl ihr =>
    rw [firstError?] at h
    cases hhalfway : op.halfway (left.evaluate b).result with
    | decided v =>
      rw [hhalfway] at h
      cases h
    | fails error =>
      rw [hhalfway] at h
      obtain rfl := Option.some.inj h
      have hresult : ((binary op left right).evaluate b).result = .error error := by
        rw [evaluate_binary, hhalfway]
      cases hleft : left.firstError? b with
      | some rest =>
        refine (ihl hleft).under (fun _ => rfl) (fun _ => rfl) fun error' herror => ?_
        rw [herror] at hhalfway
        rw [hresult, ← Halfway.fails.inj hhalfway]
      | none =>
        obtain ⟨v, hv⟩ := firstError?_eq_none_iff.1 hleft
        rw [hv] at hhalfway
        refine ⟨?_, error, hresult, Or.inr ⟨[], op, left, right, v, rfl, ?_, hv, hhalfway⟩⟩
        · rw [Option.getD_none, reaches, reaches]
        · rw [at?]
    | goesOn v =>
      rw [hhalfway] at h
      dsimp only at h
      rw [errorPlace_eq_some_iff, Option.map_eq_some_iff] at h
      obtain ⟨rest, hrest, rfl⟩ | ⟨-, rfl, error, herror⟩ := h
      · refine (ihr hrest).under (fun _ => rfl) (fun rest => ?_) fun error herror => ?_
        · rw [reaches, hhalfway]
        · rw [evaluate_binary, hhalfway, herror]
          rfl
      · exact ErrorArises.root herror

lemma leftOf_cons_self_iff {t : Turn} {p q : List Turn} :
    LeftOf (t :: p) (t :: q) ↔ LeftOf p q := by
  rw [leftOf_cons_iff, and_iff_right rfl]
  refine or_iff_right ?_
  rintro ⟨rfl, h⟩
  cases h

/-- What is after an error of an operator's operand and in that operand is after the error there. -/
lemma exists_errorPlace_iff {t : Turn} {below : Option (List Turn)}
    {result : Except EvalError Value} {rest : List Turn} :
    (∃ error, errorPlace (below.map (t :: ·)) result = some error ∧ LeftOf error (t :: rest)) ↔
      ∃ error, below = some error ∧ LeftOf error rest := by
  cases below with
  | some place => simp [errorPlace, leftOf_cons_self_iff]
  | none =>
    rcases result with error | v <;> simp [errorPlace, not_leftOf_nil_left]

lemma afterError_unary_iff {op : UnaryOp} {operand : Expr} {rest : List Turn} :
    AfterError b (unary op operand) (.operand :: rest) ↔ AfterError b operand rest :=
  exists_errorPlace_iff

lemma afterError_left_iff {op : BinaryOp} {left right : Expr} {rest : List Turn} :
    AfterError b (binary op left right) (.left :: rest) ↔ AfterError b left rest := by
  by_cases hfails : ∃ error, op.halfway (left.evaluate b).result = .fails error
  · obtain ⟨error, hfails⟩ := hfails
    rw [AfterError, AfterError, firstError?, hfails]
    cases left.firstError? b with
    | none => simp [leftOf_cons_self_iff, not_leftOf_nil_left]
    | some place => simp [leftOf_cons_self_iff]
  · -- the left operand has a value, and an error further right is not to the left of anything in it
    rw [not_exists] at hfails
    have hleft : left.firstError? b = none :=
      firstError?_eq_none_iff.2 (BinaryOp.exists_ok_of_halfway_ne_fails hfails)
    rw [AfterError, AfterError, firstError?, hleft]
    cases hhalfway : op.halfway (left.evaluate b).result with
    | fails error => exact absurd hhalfway (hfails error)
    | decided v => simp
    | goesOn v =>
      have hright (error : List Turn) : ¬ LeftOf (.right :: error) (.left :: rest) := by
        simp [leftOf_cons_iff]
      cases right.firstError? b with
      | some place => simp [errorPlace, hright]
      | none =>
        rcases ((binary op left right).evaluate b).result with error | w <;>
        simp [errorPlace, not_leftOf_nil_left]

lemma afterError_right_iff {op : BinaryOp} {left right : Expr} {rest : List Turn} :
    AfterError b (binary op left right) (.right :: rest) ↔
      (∃ error, op.halfway (left.evaluate b).result = .fails error) ∨
      (∃ v, op.halfway (left.evaluate b).result = .goesOn v) ∧ AfterError b right rest := by
  rw [AfterError, firstError?]
  cases hhalfway : op.halfway (left.evaluate b).result with
  | fails error => simp [leftOf_cons_iff]
  | decided v => simp
  | goesOn v => simp [exists_errorPlace_iff, AfterError]

lemma not_shortCircuited_nil {e : Expr} : ¬ ShortCircuited b e [] := by
  rintro ⟨above, rest, _, _, _, hplace, -⟩
  exact List.append_ne_nil_of_right_ne_nil above (List.cons_ne_nil _ _) hplace.symm

/-- In an operand that evaluation always gets to, places are short-circuited as they are seen from
the operand. -/
lemma shortCircuited_cons_iff {e x : Expr} {turn : Turn} {rest : List Turn} (hturn : turn ≠ .right)
    (hat : ∀ rest, e.at? (turn :: rest) = x.at? rest)
    (hreaches : ∀ rest, e.reaches b (turn :: rest) = x.reaches b rest) :
    ShortCircuited b e (turn :: rest) ↔ ShortCircuited b x rest := by
  constructor
  · rintro ⟨_ | ⟨turn', above⟩, rest', connective, left, right, hplace, habove, hroot, hresult⟩
    · exact absurd (List.cons.inj hplace).1 hturn
    · obtain ⟨rfl, rfl⟩ := List.cons.inj hplace
      exact ⟨above, rest', connective, left, right, rfl, (hreaches above).symm.trans habove,
        (hat above).symm.trans hroot, hresult⟩
  · rintro ⟨above, rest', connective, left, right, rfl, habove, hroot, hresult⟩
    exact ⟨turn :: above, rest', connective, left, right, rfl, (hreaches above).trans habove,
      (hat above).trans hroot, hresult⟩

lemma shortCircuited_unary_iff {op : UnaryOp} {operand : Expr} {rest : List Turn} :
    ShortCircuited b (unary op operand) (.operand :: rest) ↔ ShortCircuited b operand rest :=
  shortCircuited_cons_iff (by decide) (fun _ => rfl) (fun _ => rfl)

lemma shortCircuited_left_iff {op : BinaryOp} {left right : Expr} {rest : List Turn} :
    ShortCircuited b (binary op left right) (.left :: rest) ↔ ShortCircuited b left rest :=
  shortCircuited_cons_iff (by decide) (fun _ => rfl) (fun _ => rfl)

lemma shortCircuited_right_iff {op : BinaryOp} {left right : Expr} {rest : List Turn} :
    ShortCircuited b (binary op left right) (.right :: rest) ↔
      (∃ v, op.halfway (left.evaluate b).result = .decided v) ∨
      (∃ v, op.halfway (left.evaluate b).result = .goesOn v) ∧ ShortCircuited b right rest := by
  rw [BinaryOp.halfway_eq_decided_iff]
  constructor
  · rintro ⟨_ | ⟨turn, above⟩, rest', connective, l, r, hplace, hreaches, hat, hresult⟩
    · obtain ⟨rfl, rfl, rfl⟩ := Expr.binary.inj (Option.some.inj hat)
      exact Or.inl ⟨connective, rfl, hresult⟩
    · obtain ⟨rfl, rfl⟩ := List.cons.inj hplace
      rw [reaches] at hreaches
      cases hhalfway : op.halfway (left.evaluate b).result with
      | goesOn v =>
        rw [hhalfway] at hreaches
        exact Or.inr ⟨⟨v, rfl⟩, above, rest', connective, l, r, rfl, hreaches, hat, hresult⟩
      | fails | decided =>
        rw [hhalfway] at hreaches
        cases hreaches
  · rintro (⟨connective, rfl, hresult⟩ |
      ⟨⟨v, hhalfway⟩, above, rest', connective, l, r, rfl, hreaches, hat, hresult⟩)
    · exact ⟨[], rest, connective, left, right, rfl, rfl, rfl, hresult⟩
    · refine ⟨.right :: above, rest', connective, l, r, rfl, ?_, hat, hresult⟩
      rw [reaches, hhalfway]
      exact hreaches

/-- Evaluation leaves out what a connective or an error keeps it from, and gets to the rest. -/
lemma not_reaches_iff {e x : Expr} {place : List Turn} (h : e.at? place = some x) :
    e.reaches b place = false ↔ ShortCircuited b e place ∨ AfterError b e place := by
  have hroot (e : Expr) : e.reaches b [] = false ↔ ShortCircuited b e [] ∨ AfterError b e [] := by
    simp [reaches, not_shortCircuited_nil, AfterError, not_leftOf_nil_right]
  induction e generalizing place with
  | literal v | path p =>
    rcases place with _ | ⟨turn, rest⟩
    · exact hroot _
    · simp [at?] at h
  | unary op operand ih =>
    rcases place with _ | ⟨_ | _ | _, rest⟩
    · exact hroot _
    · rw [shortCircuited_unary_iff, afterError_unary_iff]
      exact ih h
    · cases h
    · cases h
  | binary op left right ihl ihr =>
    rcases place with _ | ⟨_ | _ | _, rest⟩
    · exact hroot _
    · cases h
    · rw [shortCircuited_left_iff, afterError_left_iff]
      exact ihl h
    · rw [shortCircuited_right_iff, afterError_right_iff, reaches]
      cases op.halfway (left.evaluate b).result with
      | fails error => simp
      | decided v => simp
      | goesOn v => simpa using ihr h

lemma not_leftOf_self (p : List Turn) : ¬ LeftOf p p := by
  induction p with
  | nil => exact not_leftOf_nil_left
  | cons turn rest ih => exact fun h => ih (leftOf_cons_self_iff.1 h)

lemma nodup_readBy (e : Expr) : (e.readBy b).Nodup := by
  refine (e.pairwise_leftOf_occurrences.imp fun {o o'} h heq => ?_).filter _
  rw [heq] at h
  exact not_leftOf_self _ h

end Reads

/-- **Evaluation depends only on what it reads.**  The paths that evaluation resolves are those of
the occurrences that it gets to, which are some of the occurrences of paths in the expression, in
order from left to right and each at most once.  The ones left out are those in the right operand
of a connective that its left operand decides, and those to the right of the place where the first
error arises, if one does.  Under other bindings, of whatever types, in which the occurrences that
were read resolve to the same results, the result is the same and the same occurrences are read. -/
theorem evaluate_reads_only (b : Bindings σ κ) (e : Expr) :
    let read := e.readBy b
    let result := (e.evaluate b).result
    (e.evaluate b).resolved = read.map Occurrence.path ∧
    read.Sublist e.occurrences ∧ read.Nodup ∧
    (∀ place p, (⟨place, p⟩ : Occurrence) ∈ e.occurrences ↔ e.at? place = some (.path p)) ∧
    e.occurrences.map Occurrence.path = e.paths ∧
    e.occurrences.Pairwise (fun o o' => LeftOf o.place o'.place) ∧
    (∀ o ∈ e.occurrences, o ∉ read ↔ ShortCircuited b e o.place ∨ AfterError b e o.place) ∧
    (e.firstError? b = none ↔ ∃ v, result = .ok v) ∧
    (∀ place, e.firstError? b = some place → ErrorArises b e place) ∧
    (∀ {σ' κ' : Type} [HasFields σ'] [HasFields κ'] (b' : Bindings σ' κ'),
      (∀ o ∈ read, b'.resolve o.path = b.resolve o.path) →
        (e.evaluate b').result = result ∧ e.readBy b' = read ∧
          (e.evaluate b').resolved = (e.evaluate b).resolved) := by
  intro read result
  refine ⟨resolved_eq_readBy e, List.filter_sublist, nodup_readBy e,
    fun place p => mem_occurrences_iff, map_path_occurrences e, pairwise_leftOf_occurrences e,
    fun o ho => ?_, firstError?_eq_none_iff, fun place => errorArises_of_firstError?,
    fun b' h => ?_⟩
  · have hread : o ∈ read ↔ e.reaches b o.place = true := mem_readBy_iff.trans (and_iff_right ho)
    rw [hread, Bool.not_eq_true]
    exact not_reaches_iff (mem_occurrences_iff.1 ho)
  · obtain ⟨hevaluate, hread⟩ := evaluate_eq_of_readBy h
    exact ⟨congrArg Evaluation.result hevaluate, hread, congrArg Evaluation.resolved hevaluate⟩

/-- When `#.a` is false, `#.a && $.b` does not read `$.b`, and so does not see that it is an
object. -/
theorem evaluate_reads_only_conjunction :
    let p : Path := ⟨.subject, ["a"]⟩
    let q : Path := ⟨.context, ["b"]⟩
    let e := binary (.logic .and) (.path p) (.path q)
    let b : Bindings Json Json := ⟨some (.object [("a", .bool false)]), none⟩
    let b' : Bindings Json Json :=
      ⟨some (.object [("a", .bool false)]), some (.object [("b", .object [])])⟩
    (⟨[.right], q⟩ ∈ e.occurrences ∧ ⟨[.right], q⟩ ∉ e.readBy b) ∧
    b'.resolve q ≠ b.resolve q ∧ (e.evaluate b').result = (e.evaluate b).result ∧
    e.readBy b' = e.readBy b := by
  intro p q e b b'
  have hread : e.readBy b = [⟨[.left], p⟩] := rfl
  have hp : b'.resolve p = b.resolve p := rfl
  have hq : b.resolve q = .ok .null := rfl
  have hq' : b'.resolve q = .error (.objectValue q) := rfl
  have hmem : ⟨[.right], q⟩ ∈ e.occurrences := by decide
  have hshort : ShortCircuited b e [.right] :=
    ⟨[], [], .and, .path p, .path q, rfl, rfl, rfl, rfl⟩
  obtain ⟨-, -, -, -, -, -, homitted, -, -, hagrees⟩ := evaluate_reads_only b e
  obtain ⟨hresult, hreads, -⟩ := hagrees b' (by rw [hread]; simpa using hp)
  refine ⟨⟨hmem, (homitted _ hmem).2 (Or.inl hshort)⟩, ?_, hresult, hreads⟩
  rw [hq, hq']
  simp

end Expr

end GuardedMachine
