/-
# The shortest digits of a double

A double stands for all real numbers that are nearer to it than to its neighbours.  Its
shortest digits are those of the coarsest power of ten that has a multiple among these
numbers.  Of two such multiples the nearer one counts, and the greater one if both are equally
near.  A decimal that is given as a double has exactly these digits, except for those beyond
the greatest scale, which are rounded away, a half upwards.
-/
import GuardedMachine.Binary64.Basic
import GuardedMachine.Decimal.Basic

namespace GuardedMachine

namespace Binary64

/-- Whether a positive number is read as the double `x`: whether its distance from it is below
half a unit, or exactly half a unit of an even significand.  The unit below a power of two is
half as large. -/
def readsBack (x : Binary64) (r : Ratio) : Bool :=
  -- The number is compared with the ends in quarters of the unit.
  let quarters := r.timesPower 2 (2 - x.exponent)
  let lower := if x.significand = Nat.pow 2 52 ∧ minExponent < x.exponent then 1 else 2
  let low := 4 * x.significand - lower
  let high := 4 * x.significand + 2
  if x.significand % 2 = 0 then !quarters.below low && !quarters.above high
  else quarters.above low && quarters.below high

/-- Of the two multiples of `10 ^ grid` next to the double, the nearer one that is read as
the double; the greater one if both are and are equally near. -/
def onGrid? (x : Binary64) (grid : Int) : Option Nat :=
  let position := x.magnitude.timesPower 10 (-grid)
  let q := position.floor
  let hits (q : Nat) : Bool := x.readsBack ((Ratio.ofNat q).timesPower 10 grid)
  match hits q, hits (q + 1) with
  | true, true => some position.nearestUp
  | true, false => some q
  | false, true => some (q + 1)
  | false, false => none

/-- The exponent of the coarsest grid to look at: every finite double is below `10 ^ 309`. -/
def coarsestGrid : Int := 309

/-- The number of grids to look at: every positive double is a multiple of `10 ^ -1074`. -/
def gridCount : Nat := 1384

/-- The first hit on the grids from `grid` downwards. -/
def searchGrids (x : Binary64) : (count : Nat) → (grid : Int) → Nat × Int
  | 0, grid => (0, grid)
  | count + 1, grid =>
    match x.onGrid? grid with
    | some q => (q, grid)
    | none => searchGrids x count (grid - 1)

/-- The shortest digits of a double and the power of ten they count. -/
def shortestDigits (x : Binary64) : Nat × Int :=
  if x.significand = 0 then (0, 0) else searchGrids x gridCount coarsestGrid

end Binary64

/-- The decimal with the shortest digits of a double, if it is in range; the sign of zero is
dropped. -/
def Decimal.ofShortest? (x : Binary64) : Option Decimal :=
  let (digits, grid) := x.shortestDigits
  let places := (-grid).toNat
  let scale := min places maxScale
  let mantissa := Ratio.nearestUp ⟨digits * Nat.pow 10 grid.toNat, Nat.pow 10 (places - scale)⟩
  ofParts? (x.negative && mantissa != 0) mantissa scale

end GuardedMachine
