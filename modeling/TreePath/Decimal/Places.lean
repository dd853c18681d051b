import TreePath.Decimal.Layout

namespace TreePath.Decimal

/-- The whole number nearest to a quotient; a tie goes to the even neighbour. -/
def roundQuotient (num den : Nat) : Nat :=
  let whole := num / den
  let twice := 2 * (num % den)
  if twice < den then whole
  else if den < twice then whole + 1
  else if whole % 2 = 0 then whole
  else whole + 1

/-- The number of units `10 ^ unit` in a decimal, rounded. -/
def Scaled.unitsAt (d : Scaled) (unit : Int) : Nat :=
  if unit ≤ d.exponent then d.digits * Nat.pow 10 (d.exponent - unit).toNat
  else roundQuotient d.digits (Nat.pow 10 (unit - d.exponent).toNat)

/-- The exponent of the leading digit. -/
def Scaled.leading (d : Scaled) : Int :=
  if d.digits = 0 then 0 else (natDigits d.digits).length + d.exponent - 1

/-- At least `width` digits, with zeros in front. -/
def padDigits (width n : Nat) : List Char :=
  let digits := natDigits n
  zeros (width - digits.length) ++ digits

/-- The first `count` significant digits after rounding, and the exponent of the first of them. -/
def Scaled.significant (d : Scaled) (count : Nat) : List Char × Int :=
  let units := d.unitsAt (d.leading - (count - 1))
  if units = Nat.pow 10 count then (padDigits count (units / 10), d.leading + 1)
  else (padDigits count units, d.leading)

/-- A point stands before a fraction, and at the end only if it is asked for. -/
def withFraction (keepPoint : Bool) (whole fraction : List Char) : List Char :=
  if fraction.isEmpty && !keepPoint then whole else whole ++ '.' :: fraction

/-- Positional notation with a number of places. -/
def Scaled.fixedNotation (d : Scaled) (places : Nat) (keepPoint : Bool) : List Char :=
  let digits := padDigits (places + 1) (d.unitsAt (-places))
  withFraction keepPoint (digits.take (digits.length - places)) (digits.drop (digits.length - places))

/-- One digit before the point, and an exponent behind. -/
def exponentLayout (keepPoint : Bool) (digits : List Char) (leading : Int) : List Char :=
  withFraction keepPoint (digits.take 1) (digits.drop 1) ++ 'e' :: exponentDigits leading

def Scaled.exponentNotation (d : Scaled) (places : Nat) (keepPoint : Bool) : List Char :=
  let (digits, leading) := d.significant (places + 1)
  exponentLayout keepPoint digits leading

def dropTrailingZeros (digits : List Char) : List Char := (digits.reverse.dropWhile (· == '0')).reverse

/-- Significant digits, positional where the leading exponent lies between -4 and their number.
Trailing zeros of the fraction are kept only together with the point. -/
def Scaled.generalNotation (d : Scaled) (count : Nat) (keepPoint : Bool) : List Char :=
  let (digits, leading) := d.significant count
  let trim := fun fraction => if keepPoint then fraction else dropTrailingZeros fraction
  if leading < positionalFrom ∨ count ≤ leading then
    withFraction keepPoint (digits.take 1) (trim (digits.drop 1)) ++ 'e' :: exponentDigits leading
  else if leading < 0 then
    withFraction keepPoint ['0'] (trim (zeros (-leading - 1).toNat ++ digits))
  else
    let point := leading.toNat + 1
    withFraction keepPoint (digits.take point) (trim (digits.drop point))

end TreePath.Decimal
