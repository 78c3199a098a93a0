/-
# Descriptors of states

Transitions and listeners describe the states they are for by states that may leave something
open.  A descriptor is compared with the states of a dispatch by `overlaps`.
-/

namespace GuardedMachine

/-- The types of states that can serve as descriptors of states. -/
class Descriptor (S : Type) where
  /-- Whether two descriptors agree wherever both are specific. -/
  overlaps : S → S → Bool
  /-- Whether nothing is left open. -/
  isConcrete : S → Bool
  /-- Whether anything is specific. -/
  hasLabel : S → Bool

export Descriptor (overlaps isConcrete hasLabel)

end GuardedMachine
