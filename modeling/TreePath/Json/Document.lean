import TreePath.Json.Reading

namespace TreePath.Json

/-- A flaw and the text before it. -/
structure Fault where
  flaw : Flaw
  before : List Char
deriving DecidableEq, Repr

namespace Fault

/-- Lines count from one and only a line feed ends one. -/
def line (f : Fault) : Nat := f.before.count '\n' + 1

/-- Columns count from one. -/
def column (f : Fault) : Nat := (f.before.reverse.takeWhile (· != '\n')).length + 1

def offset (f : Fault) : Nat := f.before.length

def message (f : Fault) : String :=
  f.flaw.message ++ ": line " ++ toString f.line ++ " column " ++ toString f.column ++ " (char "
    ++ toString f.offset ++ ")"

/-- The fault whose flaw was met with `rest` still to be read. -/
def of (flaw : Flaw) (text rest : List Char) : Fault :=
  ⟨flaw, text.take (text.length - rest.length)⟩

end Fault

/-- What makes data no document. -/
inductive DocumentFault where
  | malformed (f : Fault)
  | undecodable (f : Text.DecodingFault)
  /-- The top level holds neither an array nor an object. -/
  | fragment (found : Kind)
deriving DecidableEq, Repr

def DocumentFault.message : DocumentFault → String
  | malformed f => "invalid JSON document: " ++ f.message
  | undecodable f => "invalid JSON document: " ++ f.message
  | fragment found => "JSON document top level must be an array or object, got " ++ found.name

/-- Why data could not be read. -/
inductive ReadError where
  | document (f : DocumentFault)
  | overlong (e : TooManyDigits)
  /-- The data is neither a text nor bytes. -/
  | notText (found : String)
deriving DecidableEq, Repr

def byteOrderMark : Char := '\uFEFF'

/-- The text that data holds. A text, unlike bytes, must not start with a byte order mark. -/
def textOf : Value → Except ReadError (List Char)
  | .str s =>
    match s.toList with
    | c :: rest =>
      if c = byteOrderMark then .error (.document (.malformed ⟨.byteOrderMark, []⟩)) else .ok (c :: rest)
    | [] => .ok []
  | .bytes octets => (Text.decodeDetected octets).mapError fun f => .document (.undecodable f)
  | .buffer octets => (Text.decodeDetected octets).mapError fun f => .document (.undecodable f)
  | v => .error (.notText v.typeName)

/-- Any JSON value, wherever it may stand. -/
def readAny (data : Value) : Except ReadError Value :=
  match textOf data with
  | .error e => .error e
  | .ok text =>
    match read text with
    | .ok v => .ok v
    | .error (.flawed flaw rest) => .error (.document (.malformed (.of flaw text rest)))
    | .error (.overlong e) => .error (.overlong e)

/-- Reads a document; with `fragments` its top level may be any value. -/
def readDocument (fragments : Bool) (data : Value) : Except ReadError Value :=
  match readAny data with
  | .error e => .error e
  | .ok v =>
    if fragments || v.isArray || v.isMap then .ok v
    else .error (.document (.fragment v.kind))

end TreePath.Json
