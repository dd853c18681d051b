import TreePath.Session

namespace TreePath

structure Reader where
  root : Value

namespace Reader

def empty : Reader := ⟨.missing⟩

def isEmpty (r : Reader) : Bool := r.root.isMissing

def describe (r : Reader) : String := "JSONReader(" ++ r.root.display ++ ")"

/-- Reads a document. Whether any value may stand at its top is up to the settings unless it is said. -/
def ofDocument (data : Value) (fragments : Option Bool) : SessionM Reader := do
  let fragments := fragments.getD (← get).settings.fragments
  match Json.readDocument fragments data with
  | .ok root => return ⟨root⟩
  | .error e => throw (Failure.ofReadError e)

/-- The root as something expected. -/
def value (r : Reader) (expected : Expected) : Except Failure Value :=
  if r.isEmpty then .error .rootMissing
  else
    match expected.coerce? r.root with
    | .error _ => .error .tooLargeForFloat
    | .ok (some v) => .ok v
    | .ok none => .error (.rootType (.value expected) r.root.kind)

/-- Whether the root is an array with an element at the position. -/
def isValidIndex (r : Reader) (index : Value) : Except SubscriptFault Bool :=
  match r.root.items? with
  | none => .ok false
  | some items => (index.absolutePlace? (.int items.length)).map Option.isSome

/-- Whether the root is a map with the key. -/
def isValidKey (r : Reader) (key : Value) : Except SubscriptFault Bool :=
  match r.root.entries? with
  | none => .ok false
  | some entries => key.isKeyOf entries

/-- The reader of the element at a position. -/
def atIndex (r : Reader) (i : Int) : Reader :=
  match r.root.items? with
  | none => empty
  | some items => ⟨(element? items i).getD .missing⟩

/-- The reader of the value under a key. -/
def atKey (r : Reader) (name : String) : Reader :=
  match r.root.entries? with
  | none => empty
  | some entries => ⟨(Value.lookup? name entries).getD .missing⟩

/-- Subscripting by a whole number or a text; a truth value is neither. -/
def subscript (r : Reader) : Value → Except Misuse Reader
  | .int i => .ok (r.atIndex i)
  | .str name => .ok (r.atKey name)
  | v => .error (.notSubscript v.typeName)

/-- The value at a path. A `null` gives way to the substitute, unless that is the absent value. -/
def valueAt (r : Reader) (path : PathArgument) (expected : Expected) (substitute : Value) :
    SessionM Value := do
  Session.fetch r.root (← Session.asPath path) expected substitute

def readerAt (r : Reader) (path : PathArgument) : SessionM Reader := do
  return ⟨← r.valueAt path .anything .missing⟩

/-- The value at a path, or `null` where there is none as expected. A path text must be well formed
all the same. -/
def optionalValueAt (r : Reader) (path : PathArgument) (expected : Expected) (nullIsAbsent : Bool) :
    SessionM Value := do
  Session.fetchOptional r.root (← Session.asPath path) expected nullIsAbsent

/-- The value at a path, or the default where the traversal fails. A path text must be well formed
all the same. -/
def valueOrDefault (r : Reader) (path : PathArgument) (default : Value) (expected : Expected) :
    SessionM Value :=
  tryCatch (r.valueAt path expected .missing) fun
    | .traversal _ => return default
    | e => throw e

/-- Empty readers equal empty readers; others are equal if their roots are. -/
def same (r s : Reader) : Bool :=
  if r.isEmpty || s.isEmpty then r.isEmpty && s.isEmpty else r.root.same s.root

end Reader

end TreePath
