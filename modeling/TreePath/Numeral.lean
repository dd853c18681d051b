import TreePath.Decimal.Binary
import TreePath.Decimal.Shortest
import TreePath.Text.Blank
import TreePath.Text.DecimalDigit

namespace TreePath

/-- A numeral of more digits is refused, leading zeros counted. -/
def digitLimit : Nat := 4300

/-- Why digits were not read: there are `count` of them, more than `digitLimit`. -/
structure TooManyDigits where
  count : Nat
deriving DecidableEq, Repr

/-- An optional minus sign and one or more ASCII digits. -/
structure Numeral where
  negative : Bool
  digits : List Char
deriving DecidableEq, Repr

namespace Numeral

def ofDigits (digits : List Char) : Nat := Nat.ofDigitChars 10 digits 0

def toInt (n : Numeral) : Int :=
  if n.negative then -(ofDigits n.digits : Int) else ofDigits n.digits

def toList (n : Numeral) : List Char :=
  if n.negative then '-' :: n.digits else n.digits

def value (n : Numeral) : Except TooManyDigits Int :=
  if digitLimit < n.digits.length then .error ⟨n.digits.length⟩ else .ok n.toInt

/-- The longest numeral at the start of a text, and what follows it. -/
def split? : List Char → Option (Numeral × List Char)
  | '-' :: rest =>
    match rest.takeWhile Char.isDigit with
    | [] => none
    | d :: ds => some (⟨true, d :: ds⟩, rest.dropWhile Char.isDigit)
  | s =>
    match s.takeWhile Char.isDigit with
    | [] => none
    | d :: ds => some (⟨false, d :: ds⟩, s.dropWhile Char.isDigit)

theorem toList_append_of_split? {s rest : List Char} {n : Numeral}
    (h : split? s = some (n, rest)) : n.toList ++ rest = s := by
  unfold split? at h
  split at h
  · next r =>
    split at h
    · cases h
    · next d ds hd =>
      cases h
      simp only [toList, ↓reduceIte, List.cons_append, List.cons.injEq, true_and]
      rw [← List.cons_append, ← hd, List.takeWhile_append_dropWhile]
  · next r _ =>
    split at h
    · cases h
    · next d ds hd =>
      cases h
      simp only [toList, Bool.false_eq_true, ↓reduceIte]
      rw [← hd, List.takeWhile_append_dropWhile]

theorem digits_ne_nil_of_split? {s rest : List Char} {n : Numeral}
    (h : split? s = some (n, rest)) : n.digits ≠ [] := by
  unfold split? at h
  split at h <;> split at h <;> cases h <;> simp

end Numeral

/-- The digits of a numeral in which single underscores may stand between two digits, digits of any
script. -/
def ungroupedDigits? : List Char → Option (List Nat)
  | [] => none
  | [c] => (Text.digitValue? c).map ([·])
  | c :: '_' :: rest => do
    let d ← Text.digitValue? c
    let ds ← ungroupedDigits? rest
    some (d :: ds)
  | c :: rest => do
    let d ← Text.digitValue? c
    let ds ← ungroupedDigits? rest
    some (d :: ds)

/-- A whole number as people type it: blanks around it, a sign in front, underscores between digits.
None if it is no number or has more than `digitLimit` digits. -/
def looseInt? (s : List Char) : Option Int :=
  match Text.strip s with
  | '-' :: rest => (magnitude? rest).map fun n => -(n : Int)
  | '+' :: rest => (magnitude? rest).map fun n => (n : Int)
  | rest => (magnitude? rest).map fun n => (n : Int)
where
  magnitude? (s : List Char) : Option Nat := do
    let ds ← ungroupedDigits? s
    if digitLimit < ds.length then none else some (ds.foldl (fun n d => 10 * n + d) 0)

/-- The float nearest to a decimal, infinite where no finite one is near. Decimals whose leading
digit lies far outside the range of floats are settled by their size alone. -/
def Decimal.Scaled.toFloat (d : Decimal.Scaled) : Float :=
  let leading := (Nat.toDigits 10 d.digits).length + d.exponent
  if d.digits = 0 ∨ leading < -330 then 0.0
  else if 330 < leading then 1.0 / 0.0
  else Float.ofScientific d.digits (d.exponent < 0) d.exponent.natAbs

end TreePath
