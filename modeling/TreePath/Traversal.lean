import TreePath.Expected
import TreePath.Walk

namespace TreePath

/-- Why a tree does not have the shape that a path expects. -/
inductive TraversalCause where
  | wrongType (wanted : Wanted) (actual : Kind)
  | noElement (step : Step)
  | missingValue

def TraversalCause.reason : TraversalCause → String
  | wrongType _ _ => "unexpectedType"
  | noElement _ => "invalidSubscript"
  | missingValue => "missingValue"

/-- A failed fetch. No step failed if the value at the end of the path was at fault. -/
structure TraversalFault where
  path : Path
  trail : List Visit
  failedStep : Option Int
  cause : TraversalCause

namespace TraversalFault

def stepNumber (n : Int) : String := "at step " ++ String.ofList (Decimal.intDigits n)

def summary (f : TraversalFault) : String :=
  match f.cause with
  | .wrongType wanted actual =>
    "unexpected type " ++ (f.failedStep.map stepNumber).getD "at end of path" ++ ": expected "
      ++ wanted.describe ++ ", got " ++ actual.name
  | .noElement step =>
    "invalid subscript " ++ step.render ++ " " ++ (f.failedStep.map stepNumber).getD "at end of path"
  | .missingValue => "missing value"

/-- The line of one visit, with its number. -/
def trailLine (number : Nat) (visit : Visit) : String :=
  "  " ++ String.ofList (Decimal.natDigits number) ++ ": " ++ visit.step.render ++ " on "
    ++ visit.value.kind.name

def trailLines (first : Nat) : List Visit → List String
  | [] => []
  | visit :: rest => trailLine first visit :: trailLines (first + 1) rest

def headline (f : TraversalFault) : String :=
  f.summary ++ " while fetching value for path " ++ Text.quote f.path.render

def message (f : TraversalFault) : String :=
  "\n".intercalate (f.headline :: trailLines 0 f.trail)

/-- The fault of a blocked walk. -/
def ofBlocked (path : Path) (b : Blocked) : TraversalFault where
  path := path
  trail := b.trail
  failedStep := some b.failedStep
  cause :=
    match b.obstacle with
    | .wrongKind expected actual => .wrongType (.kind expected) actual
    | .noElement => .noElement b.last.step

def ofMissing (path : Path) : TraversalFault := ⟨path, [], none, .missingValue⟩

end TraversalFault

/-- The value at a path, and the trail to it. -/
def resolve (root : Value) (path : Path) : Except TraversalFault (Value × List Visit) :=
  (walk root path.steps).mapError (TraversalFault.ofBlocked path)

/-- Why a value cannot be handed out as expected. -/
inductive FetchError where
  | traversal (f : TraversalFault)
  | tooLarge

/-- A `null` gives way to the substitute, unless that is the absent value. -/
def substituteNull (substitute value : Value) : Value :=
  if value.isNull && !substitute.isMissing then substitute else value

/-- The value at the end of a walk as something expected. -/
def handOut (path : Path) (trail : List Visit) (expected : Expected) (value : Value) :
    Except FetchError Value :=
  match expected.coerce? value with
  | .error _ => .error .tooLarge
  | .ok (some v) => .ok v
  | .ok none =>
    .error (.traversal ⟨path, trail, none, .wrongType (.value expected) value.kind⟩)

/-- The value at a path as something expected. The absent value is no value. -/
def fetch (root : Value) (path : Path) (expected : Expected) (substitute : Value) :
    Except FetchError Value :=
  match resolve root path with
  | .error f => .error (.traversal f)
  | .ok (value, trail) =>
    if value.isMissing then .error (.traversal (.ofMissing path))
    else handOut path trail expected (substituteNull substitute value)

end TreePath
