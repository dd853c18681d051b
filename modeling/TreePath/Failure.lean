import TreePath.Json.Document
import TreePath.Logger
import TreePath.Message.Template
import TreePath.Step.Record
import TreePath.Traversal
import TreePath.Value.Subscript

namespace TreePath

/-- A value of the wrong sort was handed in. -/
inductive Misuse where
  | notPathText (found : String)
  | notStep (found : String) (place : Nat)
  | notAddable (found : String)
  | notSubscript (found : String)
  | notDocument (found : String)
  /-- The number of the step that failed was left out. -/
  | noStepNumber
  /-- An error that says nothing but that there is no root was given words of its own. -/
  | surplusWords (count : Nat)
deriving DecidableEq, Repr

def Misuse.message : Misuse → String
  | notPathText found => "path must be a str, got " ++ found
  | notStep found place =>
    "JSONPath components must be path components, got " ++ found ++ " at index "
      ++ String.ofList (Decimal.natDigits place)
  | notAddable found => "unsupported operand type(s) for +: 'JSONPath' and '" ++ found ++ "'"
  | notSubscript found => "JSONReader indices must be int or str, not " ++ found
  | notDocument found => "the JSON object must be str, bytes or bytearray, not " ++ found
  | noStepNumber => "tuple indices must be integers or slices, not NoneType"
  | surplusWords count =>
    "ReaderMissingValueError.__init__() takes 1 positional argument but "
      ++ String.ofList (Decimal.natDigits (count + 1)) ++ " were given"

/-- The errors that are stated in free words. -/
inductive StatedKind where
  | general
  | rootValue
  | document
  | constant
deriving DecidableEq, Repr

inductive Failure where
  | path (f : PathFault)
  /-- A path text that should have been known to be valid is not. -/
  | constant (f : PathFault)
  | overlong (e : TooManyDigits)
  | traversal (f : TraversalFault)
  | rootMissing
  | rootType (wanted : Wanted) (actual : Kind)
  | document (f : Json.DocumentFault)
  | stated (kind : StatedKind) (words : List String)
  | record (faults : List RecordFault)
  | misuse (m : Misuse)
  | subscript (f : SubscriptFault)
  | tooLargeForFloat
  | place (f : PlaceFault)
  | zeroStep
  | boundTooSmall
  /-- Entries were to be evicted, and there were none left. -/
  | nothingToEvict
  | setting (f : SettingFault)
  | level (f : LevelFault)
  | template (f : Template.Fault)
  /-- A failed traversal without a cause. -/
  | unspecified

/-- The families of failures that a caller may look out for. -/
inductive Family where
  | library
  | pathText
  | traversal
  | rootValue
  | value
  | lookup
  | type
  | runtime
deriving DecidableEq, Repr

def TooManyDigits.message (e : TooManyDigits) : String :=
  "Exceeds the limit (" ++ String.ofList (Decimal.natDigits digitLimit)
    ++ " digits) for integer string conversion: value has "
    ++ String.ofList (Decimal.natDigits e.count)
    ++ " digits; use sys.set_int_max_str_digits() to increase the limit"

/-- One word stands for itself, several are shown as a sequence. -/
def statedMessage : List String → String
  | [] => ""
  | [word] => word
  | words => (Value.tuple (words.map .str)).display

namespace Failure

def message : Failure → String
  | path f => f.message
  | constant f => "path literal " ++ Text.quote f.text ++ " is not a valid path: " ++ f.message
  | overlong e => e.message
  | traversal f => f.message
  | rootMissing => "reader has no root value"
  | rootType wanted actual =>
    "root value has unexpected type: expected " ++ wanted.describe ++ ", got " ++ actual.name
  | document f => f.message
  | stated _ words => statedMessage words
  | record faults => "\n".intercalate (faults.map fun f => f.problem.message)
  | misuse m => m.message
  | subscript f => f.message
  | tooLargeForFloat => "int too large to convert to float"
  | place f => f.message
  | zeroStep => "slice step cannot be zero"
  | boundTooSmall => "max_entries must be >= 1 or None"
  | nothingToEvict => "'dictionary is empty'"
  | setting f => f.message
  | level f => f.message
  | template f => f.message
  | unspecified => ""

/-- The families of the library's own failures. -/
def families : Failure → List Family
  | path _ => [.library, .pathText, .value]
  | traversal _ => [.library, .traversal, .lookup]
  | rootMissing => [.library, .rootValue]
  | rootType _ _ => [.library, .rootValue, .type]
  | document _ => [.library, .value]
  | stated .general _ => [.library]
  | stated .rootValue _ => [.library, .rootValue]
  | stated .document _ => [.library, .value]
  | stated .constant _ => [.runtime]
  | constant _ => [.runtime]
  | _ => []

def ofParseError : ParseError → Failure
  | .flawed f => path f
  | .overlong e => overlong e

def ofFetchError : FetchError → Failure
  | .traversal f => traversal f
  | .tooLarge => tooLargeForFloat

def ofReadError : Json.ReadError → Failure
  | .document f => document f
  | .overlong e => overlong e
  | .notText found => misuse (.notDocument found)

end Failure

/-- An item handed in where a step is wanted. -/
inductive PathItem where
  | step (s : Step)
  | other (v : Value)

/-- The path of the items, none of which may be anything but a step. -/
def Path.ofItems (items : List PathItem) : Except Misuse Path :=
  (collect 0 items).map Path.mk
where
  collect (place : Nat) : List PathItem → Except Misuse (List Step)
    | [] => .ok []
    | .other v :: _ => .error (.notStep v.typeName place)
    | .step s :: rest => (collect (place + 1) rest).map (s :: ·)

/-- What stands for a path: a path, or a value, which is one if it is a path text. -/
inductive PathArgument where
  | path (p : Path)
  | value (v : Value)

namespace PathArgument

def typeName : PathArgument → String
  | path _ => "JSONPath"
  | value v => v.typeName

end PathArgument

/-- Only a path can be added to a path. -/
def Path.add (p : Path) : PathArgument → Except Misuse Path
  | .path q => .ok (p ++ q)
  | .value v => .error (.notAddable v.typeName)

/-- A path equals no value. -/
def Path.same (p : Path) : PathArgument → Bool
  | .path q => p == q
  | .value _ => false

namespace TraversalFault

/-- A fault stated outright; the step that leads nowhere is found in the trail by its number, which
may count from the end. -/
def ofNoElement (path : Path) (trail : List Visit) : Option Int → Except Failure TraversalFault
  | none => .error (.misuse .noStepNumber)
  | some n =>
    match elementAt trail n with
    | .ok visit => .ok ⟨path, trail, some n, .noElement visit.step⟩
    | .error f => .error (.place f)

end TraversalFault

/-- An error that says that there is no root has words of its own and takes no others. -/
def Failure.ofRootMissing : List String → Except Misuse Failure
  | [] => .ok .rootMissing
  | words => .error (.surplusWords words.length)

end TreePath
