namespace TreePath.Decimal

/-- What the bits of a float stand for. The finite value is `mantissa * 2 ^ exponent` with the sign
in front. -/
inductive Form where
  | nan
  | infinite (negative : Bool)
  | finite (negative : Bool) (mantissa : Nat) (exponent : Int)
deriving DecidableEq, Repr

namespace Form

def ofBits (bits : UInt64) : Form :=
  let negative := bits >>> 63 != 0
  let biased := ((bits >>> 52) &&& 0x7FF).toNat
  let fraction := (bits &&& 0xFFFFFFFFFFFFF).toNat
  if biased = 0x7FF then
    if fraction = 0 then infinite negative else nan
  else if biased = 0 then finite negative fraction (-1074)
  else finite negative (Nat.pow 2 52 + fraction) (biased - 1075)

def ofFloat (x : Float) : Form := ofBits x.toBits

/-- Compares a finite value, given by its signed mantissa and its exponent, with a whole number. -/
def compareScaled (mantissa exponent n : Int) : Ordering :=
  compare (mantissa * (Nat.pow 2 exponent.toNat : Nat)) (n * (Nat.pow 2 (-exponent).toNat : Nat))

/-- The order of a float and a whole number, by their exact values; a NaN has none. -/
def compareInt? (x : Form) (n : Int) : Option Ordering :=
  match x with
  | nan => none
  | infinite negative => some (if negative then .lt else .gt)
  | finite negative mantissa exponent =>
    some (compareScaled (if negative then -(mantissa : Int) else mantissa) exponent n)

/-- The whole part, with the fraction cut off. -/
def truncate? : Form → Option Int
  | finite negative mantissa exponent =>
    let whole := mantissa * Nat.pow 2 exponent.toNat / Nat.pow 2 (-exponent).toNat
    some (if negative then -(whole : Int) else whole)
  | _ => none

end Form

/-- The least whole number too large for a float: it lies half way between the greatest finite value
and the next power of two, and rounds away from the former. -/
@[irreducible] def floatLimit : Nat := Nat.pow 2 1024 - Nat.pow 2 970

/-- The float nearest to a whole number, ties going to the even mantissa; none from `floatLimit` on. -/
def floatOfInt? (n : Int) : Option Float :=
  if n.natAbs < floatLimit then
    let x := Float.ofScientific n.natAbs false 0
    some (if n < 0 then -x else x)
  else none

theorem floatOfInt?_eq_none_iff {n : Int} : floatOfInt? n = none ↔ floatLimit ≤ n.natAbs := by
  simp [floatOfInt?]

end TreePath.Decimal
