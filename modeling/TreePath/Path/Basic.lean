import TreePath.Path.Reading
import TreePath.Position

namespace TreePath

structure Path where
  steps : List Step
deriving DecidableEq

/-- A flaw of a path text and its place, counted in characters from the start. -/
structure PathFault where
  text : String
  position : Int
  flaw : PathFlaw
deriving DecidableEq, Repr

def PathFlaw.reason : PathFlaw → String
  | malformed => "parsing"
  | stepExpected => "expectedComponent"
  | badSubscript => "invalidSubscriptValue"
  | openSubscript => "expectedEndOfSubscript"
  | openText => "unexpectedEndOfString"

def PathFlaw.description : PathFlaw → String
  | malformed => "invalid path"
  | stepExpected => "expected a subscript or identifier"
  | badSubscript => "subscript must be an integer, 'self' or a quoted string"
  | openSubscript => "expected ']'"
  | openText => "quoted string is not terminated"

def PathFault.message (f : PathFault) : String :=
  f.flaw.description ++ " at offset " ++ String.ofList (Decimal.intDigits f.position) ++ " in path "
    ++ Text.quote f.text

/-- Why a path text cannot be read. -/
inductive ParseError where
  | flawed (f : PathFault)
  | overlong (e : TooManyDigits)
deriving DecidableEq, Repr

/-- The error of a halt within a text: what remained there tells the place. -/
def Halt.toError (text : String) : Halt → ParseError
  | flawed flaw rest => .flawed ⟨text, text.toList.length - rest.length, flaw⟩
  | overlong e => .overlong e

/-- The steps of a path text. -/
def parseSteps (text : String) : Except ParseError (List Step) :=
  (Reading.readAll text.toList).mapError (Halt.toError text)

namespace Path

def empty : Path := ⟨[]⟩

def length (p : Path) : Nat := p.steps.length

def isEmpty (p : Path) : Bool := p.steps.isEmpty

def append (p q : Path) : Path := ⟨p.steps ++ q.steps⟩

instance : Append Path := ⟨append⟩

def render (p : Path) : String := renderSteps p.steps

def describe (p : Path) : String := "JSONPath(" ++ Text.quote p.render ++ ")"

def slice (p : Path) (s : Slice) : Except ZeroStep Path := (s.apply p.steps).map Path.mk

theorem steps_append (p q : Path) : (p ++ q).steps = p.steps ++ q.steps := rfl

end Path

/-- A whole number reduced modulo the prime 2^61 - 1, with its sign kept; -1 is taken for -2. -/
def digestInt (n : Int) : Int :=
  let reduced := Int.tmod n 2305843009213693951
  if reduced = -1 then -2 else reduced

/-- What two steps have in common if they are digested alike. -/
inductive StepDigest where
  | key (name : String)
  | index (reduced : Int)
  | here
deriving DecidableEq, Repr

def Step.digest : Step → StepDigest
  | key name => .key name
  | index i => .index (digestInt i.val)
  | here => .here

/-- Equal paths have equal digests, and so do paths whose indexes differ by the reduction alone. -/
def Path.digest (p : Path) : List StepDigest := p.steps.map Step.digest

end TreePath
