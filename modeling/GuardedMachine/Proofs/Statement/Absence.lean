/-
# Statements about absent data

Whether data is absent or null makes no difference to a compiled statement.  Every path of it
has a segment, since the scanner accepts no path without one, and of such a path only the
fields are read; so subjects and contexts that are alike give the same answer, with the same
paths resolved.
-/
import GuardedMachine.Proofs.Expr.Paths
import GuardedMachine.Proofs.Fields.Absence
import GuardedMachine.Proofs.Statement.Reprinting

namespace GuardedMachine

/-! ## The paths of a compiled expression -/

namespace Expr

lemma path_mem_tokens {e : Expr} {p : Path} (h : p ∈ e.paths) : .path p ∈ e.tokens := by
  induction e with
  | literal v => cases h
  | path q =>
    rw [List.mem_singleton.1 h]
    exact List.mem_singleton_self _
  | unary op e ih => exact List.mem_cons_of_mem _ (ih h)
  | binary op l r ihl ihr =>
    simp only [tokens, List.mem_cons, List.mem_append, List.not_mem_nil, reduceCtorEq, false_or,
      or_false]
    exact (List.mem_append.1 h).imp ihl ihr

/-- A path that is scanned has segments, and none of them is empty. -/
lemma segments_of_lexical {p : Path} (h : (Token.path p).Lexical) :
    p.segments ≠ [] ∧ ∀ segment ∈ p.segments, segment ≠ "" := by
  obtain ⟨l, shape, hshaped, hdenotes⟩ := h
  cases hdenotes with
  | path =>
    cases hshaped with
    | path hne hsegments =>
      refine ⟨by simp [hne], fun segment hsegment => ?_⟩
      obtain ⟨chars, hchars, rfl⟩ := List.mem_map.1 hsegment
      obtain ⟨hnonempty, -⟩ := hsegments chars hchars
      simp [hnonempty]

end Expr

/-! ## Bindings that are alike -/

variable {σ κ σ' κ' : Type} [HasFields σ] [HasFields κ] [HasFields σ'] [HasFields κ']

/-- Bindings whose subjects and whose contexts are alike. -/
def Bindings.Alike (b : Bindings σ κ) (b' : Bindings σ' κ') : Prop :=
  RootsAlike b.subject b'.subject ∧ RootsAlike b.context b'.context

lemma Bindings.Alike.resolve_eq {b : Bindings σ κ} {b' : Bindings σ' κ'} (h : b.Alike b')
    {p : Path} (hp : p.segments ≠ []) : b.resolve p = b'.resolve p := by
  obtain ⟨hsubject, hcontext⟩ := h
  rw [Bindings.resolve, Bindings.resolve]
  cases p.scope with
  | subject => exact resolve_eq_of_alike hsubject hp
  | context => exact resolve_eq_of_alike hcontext hp

namespace Statement

/-- Every path of a compiled statement has segments, and none of them is empty. -/
lemma segments_of_compile {text : String} {s : Statement} (h : compile text = .ok s) {p : Path}
    (hp : p ∈ s.expr.paths) : p.segments ≠ [] ∧ ∀ segment ∈ p.segments, segment ≠ "" := by
  obtain ⟨hparse, -⟩ := compile_eq_ok_iff.1 h
  obtain ⟨hlexical, -⟩ := Expr.lexical_tokens_of_parse hparse
  exact Expr.segments_of_lexical (hlexical _ (Expr.path_mem_tokens hp))

/-- **Absent and null are indistinguishable.**  The paths of a compiled statement have segments,
none of them empty.  So the statement gives the same answer, or the same error, and resolves the
same paths, under any two bindings that are alike: their objects differ in nothing but fields
that are absent in one and null in the other, at any depth, or a root is absent in one and has
no field but null ones in the other.  Documents are alike if their members, and the items at the
end of their arrays, differ in that way only. -/
theorem holds_eq_of_alike (text : String) (s : Statement) (h : compile text = .ok s) :
    (∀ p ∈ s.expr.paths, p.segments ≠ [] ∧ ∀ segment ∈ p.segments, segment ≠ "") ∧
    (∀ (σ κ σ' κ' : Type) [HasFields σ] [HasFields κ] [HasFields σ'] [HasFields κ']
      (b : Bindings σ κ) (b' : Bindings σ' κ'), b.Alike b' → s.holds b = s.holds b') ∧
    ∀ j j' : Json, j.AlikeJson j' → Alike j j' := by
  have hsegments := fun p (hp : p ∈ s.expr.paths) => segments_of_compile h hp
  refine ⟨hsegments, ?_, fun j j' hj => hj.alike⟩
  intro σ κ σ' κ' _ _ _ _ b b' hb
  have hevaluate := Expr.evaluateBy_eq_of_resolve_eq Decimal.roundedQuotient? fun p hp =>
    hb.resolve_eq (hsegments p hp).1
  rw [holds, holds, holdsBy, holdsBy, hevaluate]

/-- A null at the end of an array, and a context with nothing but a null in it. -/
theorem holds_eq_of_alike_items :
    let text := "#.0 && #.1 == $.note;"
    let s : Statement := ⟨text, .binary (.logic .and) (.path ⟨.subject, ["0"]⟩)
      (.binary (.equality .equal) (.path ⟨.subject, ["1"]⟩) (.path ⟨.context, ["note"]⟩))⟩
    let b : Bindings Json Json := ⟨some (.array [.bool true]), none⟩
    let b' : Bindings Json Json :=
      ⟨some (.array [.bool true, .null]), some (.object [("note", .null)])⟩
    compile text = .ok s ∧ b.Alike b' ∧ (s.holds b').result = .ok true := by
  intro text s b b'
  have hcompile : compile text = .ok s := by decide +kernel
  obtain ⟨-, hholds, hjson⟩ := holds_eq_of_alike text s hcompile
  have hcontext (name : String) :
      Missing (HasFields.field? (Json.object [("note", .null)]) name) := by
    by_cases hname : "note" = name
    · rw [← hname]
      exact Or.inr (rfl)
    · refine Or.inl ?_
      show (Json.member? _ name).bind Json.toField? = none
      rw [Json.member?_cons, if_neg hname]
      rfl
  have halike : b.Alike b' :=
    ⟨.some (hjson _ _ (Json.alikeJson_append_null [.bool true] 1)), .noneSome hcontext⟩
  have hb : (s.holds b).result = .ok true := by decide +kernel
  refine ⟨hcompile, halike, ?_⟩
  rw [← hholds Json Json Json Json b b' halike]
  exact hb

end Statement

end GuardedMachine
