import TreePath.Position
import TreePath.Value.Equality

namespace TreePath

/-- Why a value is no subscript. -/
inductive SubscriptFault where
  /-- Neither value comes before the other; the relation is the one that the left one was asked for. -/
  | unordered (relation : Char) (left right : String)
  | unaddable (left right : String)
  | tooLargeForFloat
  | undigestible (found : String)
deriving DecidableEq, Repr

def SubscriptFault.message : SubscriptFault → String
  | unordered relation left right =>
    "'" ++ String.singleton relation ++ "' not supported between instances of '" ++ left ++ "' and '"
      ++ right ++ "'"
  | unaddable left right =>
    if ["str", "list", "tuple"].contains left then
      "can only concatenate " ++ left ++ " (not \"" ++ right ++ "\") to " ++ left
    else if ["bytes", "bytearray"].contains left then
      "can't concat " ++ right ++ " to " ++ left
    else "unsupported operand type(s) for +: '" ++ left ++ "' and '" ++ right ++ "'"
  | tooLargeForFloat => "int too large to convert to float"
  | undigestible found => "unhashable type: '" ++ found ++ "'"

namespace Value

/-- The name of a value's type where its order is asked for: a read-only map stands for the map it
shows. -/
def orderedName : Value → String
  | view entries => (map entries).typeName
  | v => v.typeName

/-- The fault of asking whether the left value is less than the right one where they have no order. A
read-only map on the right is asked in its turn whether it is the greater one. -/
def unordered (left : Value) : Value → SubscriptFault
  | view entries => .unordered '>' (view entries).orderedName left.orderedName
  | right => .unordered '<' left.orderedName right.typeName

/-- Whether zero is at most the number, which a NaN does not allow. -/
def atLeastZero (n : Number) : Bool :=
  match (Number.int 0).compare? n with
  | some .gt => false
  | some _ => true
  | none => false

/-- A place, shown as some value, if it lies within the length. -/
def placeWithin (place : Number) (shown length : Value) : Except SubscriptFault (Option Value) :=
  if atLeastZero place then
    match length.number? with
    | none => .error (shown.unordered length)
    | some n => .ok (if place.lt n then some shown else none)
  else .ok none

/-- The place that a value means as a position among so many. A position that does not count from the
end is shown as it came. -/
def absolutePlace? (index length : Value) : Except SubscriptFault (Option Value) :=
  match index.number? with
  | none => .error (index.unordered (.int 0))
  | some i =>
    if i.lt (.int 0) then
      match length.number? with
      | none => .error (.unaddable length.typeName index.typeName)
      | some n =>
        match n.add? i with
        | none => .error .tooLargeForFloat
        | some place => placeWithin place place.toValue length
    else placeWithin i index length

theorem atLeastZero_int (n : Int) : atLeastZero (.int n) = decide (0 ≤ n) := by
  have h : compare (0 : Int) n = .gt ↔ n < 0 := Int.compare_eq_gt
  simp only [atLeastZero, Number.compare?]
  by_cases hn : n < 0
  · rw [h.2 hn, decide_eq_false (by omega)]
  · have : compare (0 : Int) n ≠ .gt := fun hc => hn (h.1 hc)
    rw [decide_eq_true (by omega)]
    cases hc : compare (0 : Int) n <;> simp_all

theorem lt_int (m n : Int) : (Number.int m).lt (.int n) = decide (m < n) := by
  have h : compare m n = .lt ↔ m < n := Int.compare_eq_lt
  simp only [Number.lt, Number.compare?]
  by_cases hm : m < n
  · simp [h.2 hm, hm]
  · have : compare m n ≠ .lt := fun hc => hm (h.1 hc)
    simp [this, hm]

theorem absolutePlace?_int (i length : Int) :
    absolutePlace? (.int i) (.int length) = .ok ((absolute? i length).map .int) := by
  simp only [absolutePlace?, number?, lt_int, Number.add?, placeWithin, atLeastZero_int,
    Number.toValue, absolute?]
  by_cases hi : i < 0
  · by_cases h0 : 0 ≤ length + i <;> simp [hi, h0]
  · by_cases h0 : 0 ≤ i <;> simp [hi, h0]

mutual

/-- The type of the first value within that has no digest. Lists, maps and changeable bytes have
none. -/
def undigestible? : Value → Option String
  | list _ => some "list"
  | map _ => some "dict"
  | view _ => some "mappingproxy"
  | buffer _ => some "bytearray"
  | tuple items => undigestibleAmong? items
  | _ => none

def undigestibleAmong? : List Value → Option String
  | [] => none
  | v :: rest =>
    match undigestible? v with
    | some found => some found
    | none => undigestibleAmong? rest

end

/-- Whether a value is a key of a map. Only texts are. -/
def isKeyOf (key : Value) (entries : List (String × Value)) : Except SubscriptFault Bool :=
  match key with
  | str name => .ok (lookup? name entries).isSome
  | v =>
    match v.undigestible? with
    | some found => .error (.undigestible found)
    | none => .ok false

end Value

end TreePath
