import TreePath.Decimal.Layout
import TreePath.Text.Quoted
import TreePath.Value.Basic

namespace TreePath.Value

/-- Members in brackets, apart by commas. -/
def enclose (left right : String) (members : List String) : String :=
  left ++ ", ".intercalate members ++ right

/-- A sequence of one member has a comma behind it, so that it differs from a member in brackets. -/
def encloseTuple : List String → String
  | [single] => "(" ++ single ++ ",)"
  | members => enclose "(" ")" members

def encloseMap (members : List String) : String := enclose "\x7b" "\x7d" members

mutual

def display : Value → String
  | null => "None"
  | bool b => if b then "True" else "False"
  | int n => String.ofList (Decimal.intDigits n)
  | float x => String.ofList (Decimal.writeFloat x)
  | str s => Text.quote s
  | list items => enclose "[" "]" (displayAll items)
  | tuple items => encloseTuple (displayAll items)
  | map entries => encloseMap (displayEntries entries)
  | view entries => "mappingproxy(" ++ encloseMap (displayEntries entries) ++ ")"
  | bytes octets => String.ofList (Text.quotedBytes octets)
  | buffer octets => "bytearray(" ++ String.ofList (Text.quotedBuffer octets) ++ ")"
  | missing => "MISSING"

def displayAll : List Value → List String
  | [] => []
  | v :: rest => v.display :: displayAll rest

def displayEntries : List (String × Value) → List String
  | [] => []
  | (k, v) :: rest => (Text.quote k ++ ": " ++ v.display) :: displayEntries rest

end

/-- A text as it is, a read-only map as the map it shows, any other value as `display` writes it. -/
def plainText : Value → String
  | str s => s
  | view entries => (map entries).display
  | v => v.display

end TreePath.Value
