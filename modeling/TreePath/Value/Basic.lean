/-!
Values of a decoded data tree. Beside the values that a document can hold, a tree built by a program
may hold fixed sequences, read-only maps, raw bytes and the mark of an absent value.
-/

namespace TreePath

/-- A value of a data tree. Maps keep their entries in the order in which the keys arrived. -/
inductive Value where
  | null
  | bool (b : Bool)
  | int (n : Int)
  | float (x : Float)
  | str (s : String)
  | list (items : List Value)
  | tuple (items : List Value)
  | map (entries : List (String × Value))
  /-- A map that its holder cannot change. -/
  | view (entries : List (String × Value))
  | bytes (octets : List UInt8)
  /-- Bytes that their holder can change. -/
  | buffer (octets : List UInt8)
  /-- The mark of an absent value, which is not `null`. -/
  | missing
deriving Inhabited

/-- What part a value plays in a tree. -/
inductive Kind where
  | null
  | boolean
  | number
  | string
  | array
  | map
  | missing
  | other
deriving DecidableEq, Repr

def Kind.name : Kind → String
  | null => "null"
  | boolean => "boolean"
  | number => "number"
  | string => "string"
  | array => "array"
  | map => "map"
  | missing => "missing"
  | other => "other"

def Kind.all : List Kind := [null, boolean, number, string, array, map, missing, other]

def Kind.ofName? (s : String) : Option Kind := all.find? fun k => k.name == s

namespace Value

def kind : Value → Kind
  | null => .null
  | bool _ => .boolean
  | int _ => .number
  | float _ => .number
  | str _ => .string
  | list _ => .array
  | tuple _ => .array
  | map _ => .map
  | view _ => .map
  | bytes _ => .other
  | buffer _ => .other
  | missing => .missing

/-- The name of a value's type, as messages show it. -/
def typeName : Value → String
  | null => "NoneType"
  | bool _ => "bool"
  | int _ => "int"
  | float _ => "float"
  | str _ => "str"
  | list _ => "list"
  | tuple _ => "tuple"
  | map _ => "dict"
  | view _ => "mappingproxy"
  | bytes _ => "bytes"
  | buffer _ => "bytearray"
  | missing => "_Missing"

/-- The elements of an array. -/
def items? : Value → Option (List Value)
  | list items => some items
  | tuple items => some items
  | _ => none

/-- The entries of a map. -/
def entries? : Value → Option (List (String × Value))
  | map entries => some entries
  | view entries => some entries
  | _ => none

def isArray (v : Value) : Bool := v.items?.isSome

def isMap (v : Value) : Bool := v.entries?.isSome

def isNull : Value → Bool
  | null => true
  | _ => false

def isMissing : Value → Bool
  | missing => true
  | _ => false

/-- Zeros, empty texts and containers, `null`, `false` and the absent value count as false. -/
def truthy : Value → Bool
  | null => false
  | bool b => b
  | int n => n != 0
  | float x => x != 0
  | str s => s != ""
  | list items => !items.isEmpty
  | tuple items => !items.isEmpty
  | map entries => !entries.isEmpty
  | view entries => !entries.isEmpty
  | bytes octets => !octets.isEmpty
  | buffer octets => !octets.isEmpty
  | missing => false

theorem isArray_eq_true_iff {v : Value} : v.isArray = true ↔ v.kind = .array := by
  cases v <;> simp [isArray, items?, kind]

theorem isMap_eq_true_iff {v : Value} : v.isMap = true ↔ v.kind = .map := by
  cases v <;> simp [isMap, entries?, kind]

theorem isMissing_eq_true_iff {v : Value} : v.isMissing = true ↔ v = .missing := by
  cases v <;> simp [isMissing]

theorem isNull_eq_true_iff {v : Value} : v.isNull = true ↔ v = .null := by
  cases v <;> simp [isNull]

end Value

/-- Adds an entry. A key that is there already keeps its place and takes the new value. -/
def putEntry (entries : List (String × Value)) (key : String) (value : Value) :
    List (String × Value) :=
  match entries with
  | [] => [(key, value)]
  | e :: rest => if e.1 = key then (key, value) :: rest else e :: putEntry rest key value

/-- The entries of a map, given in order of writing. -/
def entriesOf (written : List (String × Value)) : List (String × Value) :=
  written.foldl (fun entries e => putEntry entries e.1 e.2) []

end TreePath
