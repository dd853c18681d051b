import TreePath.Failure
import TreePath.Memo

/-!
Sessions: the settings, the logger with its trace, and the memos of parsed path texts, one of which is
installed as the default. A bracket gives its body a memo of its own and puts settings and default
memo back at its end.
-/

namespace TreePath

abbrev PathMemo := Memo (List Step)

/-- What a bracket puts back. -/
structure Snapshot where
  settings : Settings
  installed : Nat
deriving DecidableEq, Repr

/-- Memos are known by their number. Brackets are listed from the innermost out. -/
structure Session where
  settings : Settings := {}
  logger : Logger := {}
  trace : List TraceEvent := []
  memos : List PathMemo := []
  installed : Option Nat := none
  brackets : List Snapshot := []

/-- An operation within a session. What it did up to a failure stays done. -/
abbrev SessionM := ExceptT Failure (StateM Session)

namespace Session

/-- The memo of a number; there is none beyond those that were made. -/
def memoAt (s : Session) (number : Nat) : PathMemo := s.memos[number]?.getD (.ofBound none)

def setMemo (s : Session) (number : Nat) (memo : PathMemo) : Session :=
  { s with memos := s.memos.set number memo }

/-- Adds an event to the trace if one is kept. -/
def note (s : Session) (event : TraceEvent) : Session :=
  if s.logger.isTracing then { s with trace := s.trace ++ [event] } else s

def createMemo (bound : Option Int) : SessionM Nat := do
  let s ← get
  match Memo.create bound with
  | .error _ => throw Failure.boundTooSmall
  | .ok memo =>
    set { s with memos := s.memos ++ [memo] }
    return s.memos.length

/-- The number of the default memo, which is made from the settings when it is first asked for. -/
def defaultMemo : SessionM Nat := do
  match (← get).installed with
  | some number => return number
  | none =>
    let number ← createMemo (← get).settings.memoBound
    modify fun s => { s with installed := some number }
    return number

/-- Without a number the default memo is made anew when it is next asked for. -/
def install (number : Option Nat) : SessionM Unit :=
  modify fun s => { s with installed := number }

def changeMemo (number : Nat) (change : PathMemo → PathMemo) : SessionM Unit :=
  modify fun s => s.setMemo number (change (s.memoAt number))

/-- The steps of a path text, by way of a memo. A text that had to be read leaves an event. -/
def parseThrough (number : Nat) (text : String) : SessionM (List Step) := do
  let s ← get
  let (answer, memo) := (s.memoAt number).request parseSteps text
  let s := s.setMemo number memo
  match answer with
  | .held steps =>
    set s
    return steps
  | .fresh steps =>
    set (s.note (.parsed text steps.length))
    return steps
  | .unkept steps =>
    set (s.note (.parsed text steps.length))
    throw Failure.nothingToEvict
  | .failed e =>
    set s
    throw (Failure.ofParseError e)

/-- The path of a text, by way of the default memo. -/
def parse (text : String) : SessionM Path := do
  let number ← defaultMemo
  return ⟨← parseThrough number text⟩

/-- Parses what should be a path text. -/
def parseArgument : PathArgument → SessionM Path
  | .value (.str text) => parse text
  | other => throw (Failure.misuse (.notPathText other.typeName))

/-- A path as it is, and a path text parsed. -/
def asPath : PathArgument → SessionM Path
  | .path p => return p
  | .value v => parseArgument (.value v)

/-- Parses a path text that is known to be valid, so that a flaw in it is no common failure. -/
def constant (argument : PathArgument) : SessionM Path :=
  tryCatch (parseArgument argument) fun
    | .path f => throw (Failure.constant f)
    | e => throw e

/-- Leaves an event for a failed traversal. -/
def noteFault (f : TraversalFault) : SessionM Unit :=
  modify fun s => s.note (.fetchFailed f.path.render f.cause.reason)

/-- The value at a path, and the trail to it. A blocked walk leaves an event. -/
def resolve (root : Value) (path : Path) : SessionM (Value × List Visit) := do
  match TreePath.resolve root path with
  | .ok r => return r
  | .error f =>
    noteFault f
    throw (Failure.traversal f)

/-- The value at a path as something expected. A failed traversal leaves an event. -/
def fetch (root : Value) (path : Path) (expected : Expected) (substitute : Value) :
    SessionM Value := do
  match TreePath.fetch root path expected substitute with
  | .ok v => return v
  | .error (.traversal f) =>
    noteFault f
    throw (Failure.traversal f)
  | .error .tooLarge => throw Failure.tooLargeForFloat

/-- The value at a path as something expected, or `null` where the walk is blocked, the value is
absent or not as expected. Only a blocked walk leaves an event. If `nullIsAbsent` is false a `null`
has to be as expected, and is handed out all the same. -/
def fetchOptional (root : Value) (path : Path) (expected : Expected) (nullIsAbsent : Bool) :
    SessionM Value := do
  match TreePath.resolve root path with
  | .error f =>
    noteFault f
    return .null
  | .ok (found, _) =>
    if found.isMissing || (nullIsAbsent && found.isNull) then return .null
    match expected.coerce? found with
    | .ok v => return v.getD .null
    | .error _ => throw Failure.tooLargeForFloat

/-- Opens a bracket around a memo of its own. The settings are changed before the memo is made, and
stay so if it cannot be made. -/
def enter (bound : Option Int) : SessionM Nat := do
  let installed ← defaultMemo
  let snapshot : Snapshot := ⟨(← get).settings, installed⟩
  modify fun s => { s with settings := { s.settings with memoBound := bound } }
  let number ← createMemo bound
  modify fun s => { s with installed := some number, brackets := snapshot :: s.brackets }
  return number

/-- Closes the innermost bracket. -/
def leave : SessionM Unit :=
  modify fun s =>
    match s.brackets with
    | [] => s
    | snapshot :: outer =>
      { s with settings := snapshot.settings, installed := some snapshot.installed, brackets := outer }

/-- Runs a body within a bracket, which is closed however the body ends. The body is told the number of
the bracket's memo. -/
def bracketed {α : Type} (bound : Option Int) (body : Nat → SessionM α) : SessionM α := do
  let number ← enter bound
  tryFinally (body number) leave

/-- Runs an operation on the logger. -/
def onLogger {α : Type} (op : LoggerM α) : SessionM α := do
  let s ← get
  let (result, logger) := op.run.run s.logger
  set { s with logger }
  match result with
  | .ok a => return a
  | .error f => throw (Failure.level f)

def configure (level : Value) : SessionM Unit := do
  onLogger (Logger.configure (← get).settings level)

end Session

end TreePath
