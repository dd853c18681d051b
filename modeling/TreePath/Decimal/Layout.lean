import TreePath.Decimal.Shortest

namespace TreePath.Decimal

def natDigits (n : Nat) : List Char := Nat.toDigits 10 n

def intDigits (n : Int) : List Char :=
  if n < 0 then '-' :: natDigits n.natAbs else natDigits n.natAbs

def zeros (n : Nat) : List Char := List.replicate n '0'

/-- The decimal exponents of the leading digit that are written positionally. -/
def positionalFrom : Int := -4
def positionalBelow : Int := 16

/-- An exponent has a sign and at least two digits. -/
def exponentDigits (e : Int) : List Char :=
  let digits := natDigits e.natAbs
  (if e < 0 then '-' else '+') :: (zeros (2 - digits.length) ++ digits)

/-- Digits with the point after the first `point` of them; at least one digit stands on either side. -/
def placePoint (digits : List Char) (point : Int) : List Char :=
  if point ≤ 0 then '0' :: '.' :: (zeros (-point).toNat ++ digits)
  else if digits.length ≤ point then digits ++ zeros (point - digits.length).toNat ++ ['.', '0']
  else digits.take point.toNat ++ '.' :: digits.drop point.toNat

/-- Positional where the leading digit's exponent allows it, otherwise one digit before the point. -/
def Scaled.layout (d : Scaled) : List Char :=
  let digits := natDigits d.digits
  let leading := digits.length + d.exponent - 1
  if positionalFrom ≤ leading ∧ leading < positionalBelow then placePoint digits (leading + 1)
  else
    match digits with
    | [] => []
    | [c] => c :: 'e' :: exponentDigits leading
    | c :: rest => c :: '.' :: (rest ++ 'e' :: exponentDigits leading)

def Form.write : Form → List Char
  | .nan => "nan".toList
  | .infinite negative => if negative then "-inf".toList else "inf".toList
  | .finite negative mantissa exponent =>
    let size := if mantissa = 0 then "0.0".toList else (shortest mantissa exponent).layout
    if negative then '-' :: size else size

def writeFloat (x : Float) : List Char := (Form.ofFloat x).write

end TreePath.Decimal
