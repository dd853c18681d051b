import TreePath.Decimal.Binary

namespace TreePath.Decimal

/-- A nonnegative decimal, `digits * 10 ^ exponent`. -/
structure Scaled where
  digits : Nat
  exponent : Int
deriving DecidableEq, Repr

/-- Compares `a * 10 ^ i` with `n * 2 ^ j`. -/
def compareDecimal (a : Nat) (i : Int) (n : Nat) (j : Int) : Ordering :=
  compare (a * Nat.pow 10 i.toNat * Nat.pow 2 (-j).toNat) (n * Nat.pow 2 j.toNat * Nat.pow 10 (-i).toNat)

/-- The reals that round to `mantissa * 2 ^ exponent`, between two ends given in quarters of the last
binary place. The gap below a power of two is half as wide as the gap above. Both ends belong to
the interval when the mantissa is even. -/
structure RoundingInterval where
  low : Nat
  high : Nat
  exponent : Int
  closed : Bool

def RoundingInterval.of (mantissa : Nat) (exponent : Int) : RoundingInterval where
  low := if mantissa = Nat.pow 2 52 ∧ -1074 < exponent then 4 * mantissa - 1 else 4 * mantissa - 2
  high := 4 * mantissa + 2
  exponent := exponent - 2
  closed := mantissa % 2 == 0

def RoundingInterval.contains (r : RoundingInterval) (d : Scaled) : Bool :=
  let below := compareDecimal d.digits d.exponent r.low r.exponent
  let above := compareDecimal d.digits d.exponent r.high r.exponent
  (below == .gt || r.closed && below == .eq) && (above == .lt || r.closed && above == .eq)

/-- The number of whole steps of `10 ^ step` in `mantissa * 2 ^ exponent`. -/
def stepsBelow (mantissa : Nat) (exponent step : Int) : Nat :=
  mantissa * Nat.pow 2 exponent.toNat * Nat.pow 10 (-step).toNat
    / (Nat.pow 2 (-exponent).toNat * Nat.pow 10 step.toNat)

/-- Of the two neighbouring multiples of `10 ^ step` around the number, the nearer one that reads
back; on a tie the even one. -/
def neighbour? (mantissa : Nat) (exponent step : Int) : Option Scaled :=
  let interval := RoundingInterval.of mantissa exponent
  let k := stepsBelow mantissa exponent step
  let lower : Scaled := ⟨k, step⟩
  let upper : Scaled := ⟨k + 1, step⟩
  match interval.contains lower, interval.contains upper with
  | false, false => none
  | true, false => some lower
  | false, true => some upper
  | true, true =>
    -- twice the number against the sum of both neighbours
    match compareDecimal (2 * k + 1) step (2 * mantissa) exponent with
    | .gt => some lower
    | .lt => some upper
    | .eq => some (if k % 2 = 0 then lower else upper)

/-- A power of ten above `mantissa * 2 ^ exponent`, at most a few steps too high. -/
def coarsestStep (mantissa : Nat) (exponent : Int) : Int :=
  Int.fdiv ((mantissa.log2 + exponent + 1) * 30103) 100000 + 2

/-- All decimal places of the number. -/
def exactDecimal (mantissa : Nat) (exponent : Int) : Scaled :=
  if 0 ≤ exponent then ⟨mantissa * Nat.pow 2 exponent.toNat, 0⟩
  else ⟨mantissa * Nat.pow 5 (-exponent).toNat, exponent⟩

/-- The shortest decimal that reads back as the positive number `mantissa * 2 ^ exponent`, and the
nearest of these. Seventeen digits always suffice, so twenty-four steps reach the answer. -/
def shortest (mantissa : Nat) (exponent : Int) : Scaled :=
  let top := coarsestStep mantissa exponent
  ((List.range 24).findSome? fun (i : Nat) => neighbour? mantissa exponent (top - i)).getD
    (exactDecimal mantissa exponent)

end TreePath.Decimal
