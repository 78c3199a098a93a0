/-
# Guards

A guard decides whether a transition may be taken.  It is always true, a test of its own, or
compiled guard text.  All three see the subject, the state and the event that are dispatched,
and the context, if there is one; only guard text can fail.
-/
import GuardedMachine.Statement.Basic

namespace GuardedMachine

/-- A guard on subjects `T`, states `S`, events `E` and contexts `C`. -/
inductive Guard (T S E C : Type)
  /-- The guard that never prevents anything. -/
  | always
  /-- A test, and the name it is reported under. -/
  | predicate (name : String) (test : T → S → E → Option C → Bool)
  /-- Compiled guard text. -/
  | text (statement : Statement)

namespace Guard

variable {T S E C : Type}

/-- The guard with the given text. -/
def ofText (text : String) : Except CompileError (Guard T S E C) :=
  (Statement.compile text).map .text

/-- The answer of a guard. -/
def evaluate [HasFields T] [HasFields C] (g : Guard T S E C) (subject : T) (source : S)
    (event : E) (context : Option C) : Evaluation Bool :=
  match g with
  | .always => pure true
  | .predicate _ test => pure (test subject source event context)
  | .text statement => statement.holds ⟨some subject, context⟩

/-- The text that shows what a guard is; it does not show what a test does. -/
def description : Guard T S E C → String
  | .always => "Always"
  | .predicate _ _ => "Predicate(..)"
  | .text statement => "Text(" ++ Text.quote statement.text ++ ")"

end Guard

end GuardedMachine
