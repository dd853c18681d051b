import TreePath.Decimal.Binary
import TreePath.Value.Basic

namespace TreePath

/-- A class of values of its own. Its name is an identifier, so it stands on one line, and no rule says
which values are its instances: a truth value may be one, and a whole number. -/
structure ValueClass where
  name : String
  admits : Value → Bool
  newline_notMem_name : '\n' ∉ name.toList

inductive ValueType where
  /-- Every value is of this type. -/
  | any
  | int
  | float
  | str
  | bool
  | list
  | tuple
  | map
  | bytes
  | null
  | other (c : ValueClass)

namespace ValueType

def name : ValueType → String
  | any => "object"
  | int => "int"
  | float => "float"
  | str => "str"
  | bool => "bool"
  | list => "list"
  | tuple => "tuple"
  | map => "dict"
  | bytes => "bytes"
  | null => "NoneType"
  | other c => c.name

/-- The types that are no classes of their own. -/
def listed : List ValueType := [any, int, float, str, bool, list, tuple, map, bytes, null]

def ofName? (s : String) : Option ValueType := listed.find? fun t => t.name == s

/-- Membership without regard to what a caller wants: truth values are whole numbers, a map that
cannot be changed is of no listed type. -/
def admits : ValueType → Value → Bool
  | any, _ => true
  | int, .int _ => true
  | int, .bool _ => true
  | float, .float _ => true
  | str, .str _ => true
  | bool, .bool _ => true
  | list, .list _ => true
  | tuple, .tuple _ => true
  | map, .map _ => true
  | bytes, .bytes _ => true
  | null, .null => true
  | other c, v => c.admits v
  | _, _ => false

end ValueType

/-- A type, or a choice of expectations, which may be empty. -/
inductive Expected where
  | type (t : ValueType)
  | oneOf (choices : List Expected)
deriving Inhabited

/-- A whole number that no float is near to. -/
structure TooLargeForFloat where
deriving DecidableEq, Repr

namespace Expected

/-- No expectation at all. -/
def anything : Expected := type .any

mutual

/-- Membership in some type of the expectation. -/
def admits : Expected → Value → Bool
  | type t, v => t.admits v
  | oneOf choices, v => anyAdmits choices v

def anyAdmits : List Expected → Value → Bool
  | [], _ => false
  | e :: rest, v => e.admits v || anyAdmits rest v

end

mutual

/-- The names of all types, apart by bars. -/
def describe : Expected → String
  | type t => t.name
  | oneOf choices => " | ".intercalate (describeAll choices)

def describeAll : List Expected → List String
  | [] => []
  | e :: rest => e.describe :: describeAll rest

end

/-- The choices that are tried one after the other. -/
def choices : Expected → List Expected
  | type t => [type t]
  | oneOf es => es

/-- The value as one choice takes it, none if it does not. Only a choice that is itself a type keeps
truth values from numbers and turns whole numbers into floats. -/
def fit? (v : Value) : Expected → Except TooLargeForFloat (Option Value)
  | type .any => .ok (some v)
  | type t =>
    match t, v with
    | .int, .bool _ => .ok none
    | .float, .int n =>
      match Decimal.floatOfInt? n with
      | some x => .ok (some (.float x))
      | none => .error ⟨⟩
    | t, v => .ok (if t.admits v then some v else none)
  | oneOf es => .ok (if anyAdmits es v then some v else none)

/-- The value as the first choice that takes it does. -/
def fitFirst? (v : Value) : List Expected → Except TooLargeForFloat (Option Value)
  | [] => .ok none
  | e :: rest =>
    match fit? v e with
    | .error err => .error err
    | .ok (some w) => .ok (some w)
    | .ok none => fitFirst? v rest

/-- The value as the expectation takes it, none if it does not. -/
def coerce? (e : Expected) (v : Value) : Except TooLargeForFloat (Option Value) :=
  fitFirst? v e.choices

/-- Whether the value is as expected, and what it is handed out as. A value that is not as expected
stays as it is. -/
def coerce (e : Expected) (v : Value) : Except TooLargeForFloat (Bool × Value) :=
  (e.coerce? v).map fun found => (found.isSome, found.getD v)

end Expected

/-- What was wanted where something else was found. -/
inductive Wanted where
  | value (e : Expected)
  | kind (k : Kind)
  | words (s : String)

def Wanted.describe : Wanted → String
  | value e => e.describe
  | kind k => k.name
  | words s => s

end TreePath
