import TreePath.Decimal.Binary
import TreePath.Value.Basic

namespace TreePath

inductive Number where
  | int (n : Int)
  | float (x : Float)

namespace Number

/-- The order of two numbers, if they have one. -/
def compare? : Number → Number → Option Ordering
  | int m, int n => some (compare m n)
  | int m, float y => ((Decimal.Form.ofFloat y).compareInt? m).map Ordering.swap
  | float x, int n => (Decimal.Form.ofFloat x).compareInt? n
  | float x, float y =>
    if x < y then some .lt else if y < x then some .gt else if x == y then some .eq else none

def beq (a b : Number) : Bool := compare? a b == some .eq

def lt (a b : Number) : Bool := compare? a b == some .lt

/-- The sum, none if a whole number is too large to be added to a float. -/
def add? : Number → Number → Option Number
  | int m, int n => some (int (m + n))
  | int m, float y => (Decimal.floatOfInt? m).map fun x => float (x + y)
  | float x, int n => (Decimal.floatOfInt? n).map fun y => float (x + y)
  | float x, float y => some (float (x + y))

def toValue : Number → Value
  | int n => .int n
  | float x => .float x

end Number

def Value.number? : Value → Option Number
  | .bool b => some (.int (if b then 1 else 0))
  | .int n => some (.int n)
  | .float x => some (.float x)
  | _ => none

end TreePath
