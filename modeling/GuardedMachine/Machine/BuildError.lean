/-
# Build errors

What can be missing from the description of a transition or a machine, and the messages.
-/
import GuardedMachine.Statement.SyntaxError

namespace GuardedMachine

/-- One thing wrong with a description. -/
inductive BuildError
  | missingStateAccessor
  | missingErrorFactory
  | noTransitions
  | missingFromState
  | missingEvent
  | missingToState
  /-- Guard text does not compile. -/
  | invalidGuard (e : CompileError)
deriving DecidableEq, Repr

/-- The message of a build error. -/
def BuildError.message : BuildError → String
  | .missingStateAccessor =>
    "State accessor not specified. Call .state_accessor(get, set) before .build()"
  | .missingErrorFactory =>
    "Error factory not specified. Call .on_unresolved(factory) before .build()"
  | .noTransitions => "No transitions defined. Add at least one transition"
  | .missingFromState => "Transition source state not specified. Call .from(state)"
  | .missingEvent => "Transition event not specified. Call .on(event)"
  | .missingToState => "Transition target state not specified. Call .to(state)"
  | .invalidGuard e => "Invalid guard: " ++ e.message

/-- Everything wrong with a description. -/
structure BuildErrors where
  /-- The errors, in order. -/
  errors : List BuildError
deriving DecidableEq, Repr

namespace BuildErrors

/-- One error alone. -/
def single (e : BuildError) : BuildErrors := ⟨[e]⟩

/-- Whether an error is among the given ones. -/
def contains (es : BuildErrors) (e : BuildError) : Bool := es.errors.contains e

/-- The message: the number of errors, and their messages. -/
def message (es : BuildErrors) : String :=
  es.errors.length.repr ++ " build error(s): "
    ++ "; ".intercalate (es.errors.map BuildError.message)

end BuildErrors

end GuardedMachine
