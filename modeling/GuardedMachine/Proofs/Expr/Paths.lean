/-
# The paths of an expression

An expression reads its bindings through its paths only.  So two evaluations of one expression
are the same, with the paths that they resolve, if the paths of the expression resolve to the
same results; the objects behind the bindings, and even their types, do not matter otherwise.
-/
import Mathlib.Tactic.Lemma
import GuardedMachine.Expr.Evaluation

namespace GuardedMachine

namespace Expr

/-- The paths that occur in an expression, from left to right. -/
def paths : Expr → List Path
  | .literal _ => []
  | .path p => [p]
  | .unary _ operand => operand.paths
  | .binary _ left right => left.paths ++ right.paths

variable {σ κ σ' κ' : Type} [HasFields σ] [HasFields κ] [HasFields σ'] [HasFields κ']

/-- Evaluation depends on the results of the paths only. -/
lemma evaluateBy_eq_of_resolve_eq (divide : Decimal → Decimal → Option Decimal)
    {b : Bindings σ κ} {b' : Bindings σ' κ'} {e : Expr}
    (h : ∀ p ∈ e.paths, b.resolve p = b'.resolve p) :
    e.evaluateBy divide b = e.evaluateBy divide b' := by
  induction e with
  | literal v => rfl
  | path p =>
    have hp : b.resolve p = b'.resolve p := h p (by simp [paths])
    rw [evaluateBy, evaluateBy, hp]
  | unary op operand ih => rw [evaluateBy, evaluateBy, ih h]
  | binary op left right ihl ihr =>
    have hl := ihl fun p hp => h p (by simp [paths, hp])
    have hr := ihr fun p hp => h p (by simp [paths, hp])
    cases op with
    | arith op => rw [evaluateBy, evaluateBy, hl, hr]
    | order op => rw [evaluateBy, evaluateBy, hl, hr]
    | equality op => rw [evaluateBy, evaluateBy, hl, hr]
    | logic op => rw [evaluateBy, evaluateBy, hl, hr]

lemma evaluate_eq_of_resolve_eq {b : Bindings σ κ} {b' : Bindings σ' κ'} {e : Expr}
    (h : ∀ p ∈ e.paths, b.resolve p = b'.resolve p) : e.evaluate b = e.evaluate b' :=
  evaluateBy_eq_of_resolve_eq _ h

/-! ## Expressions that are the same -/

/-- What is the same as an operator on an operand is that operator on the same operand. -/
lemma exists_of_same_unary {op : UnaryOp} {operand e : Expr}
    (h : (unary op operand).same e = true) :
    ∃ operand', e = .unary op operand' ∧ operand.same operand' = true := by
  cases e with
  | unary op' operand' =>
    rw [same, Bool.and_eq_true, beq_iff_eq] at h
    obtain ⟨rfl, hsame⟩ := h
    exact ⟨operand', rfl, hsame⟩
  | literal | path | binary => cases h

lemma exists_of_same_binary {op : BinaryOp} {left right e : Expr}
    (h : (binary op left right).same e = true) :
    ∃ left' right', e = .binary op left' right' ∧ left.same left' = true ∧
      right.same right' = true := by
  cases e with
  | binary op' left' right' =>
    rw [same, Bool.and_eq_true, Bool.and_eq_true, beq_iff_eq] at h
    obtain ⟨⟨rfl, hleft⟩, hright⟩ := h
    exact ⟨left', right', rfl, hleft, hright⟩
  | literal | path | unary => cases h

lemma exists_of_same_literal {v : Value} {e : Expr} (h : (literal v).same e = true) :
    ∃ w, e = .literal w ∧ v.same w = true := by
  cases e with
  | literal w => exact ⟨w, rfl, h⟩
  | path | unary | binary => cases h

lemma eq_of_same_path {p : Path} {e : Expr} (h : (path p).same e = true) : e = .path p := by
  cases e with
  | path q => rw [beq_iff_eq.1 h]
  | literal | unary | binary => cases h

/-- Expressions that are the same have the same paths. -/
lemma paths_eq_of_same {e e' : Expr} (h : e.same e' = true) : e'.paths = e.paths := by
  induction e generalizing e' with
  | literal v =>
    obtain ⟨w, rfl, -⟩ := exists_of_same_literal h
    rfl
  | path p => rw [eq_of_same_path h]
  | unary op operand ih =>
    obtain ⟨operand', rfl, hoperand⟩ := exists_of_same_unary h
    rw [paths, paths, ih hoperand]
  | binary op left right ihl ihr =>
    obtain ⟨left', right', rfl, hleft, hright⟩ := exists_of_same_binary h
    rw [paths, paths, ihl hleft, ihr hright]

end Expr

end GuardedMachine
