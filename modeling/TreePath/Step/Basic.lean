import TreePath.Decimal.Layout
import TreePath.Position
import TreePath.Text.Quoted

namespace TreePath

/-- A position in an array. It counts from the end when negative, and fits 64 signed bits. -/
structure Index where
  val : Int
  least_le : leastWord ≤ val
  le_greatest : val ≤ greatestWord
deriving DecidableEq

namespace Index

def ofInt? (n : Int) : Option Index :=
  if h : leastWord ≤ n ∧ n ≤ greatestWord then some ⟨n, h.1, h.2⟩ else none

theorem ofInt?_val (i : Index) : ofInt? i.val = some i := by
  rw [ofInt?, dif_pos ⟨i.least_le, i.le_greatest⟩]

theorem ofInt?_eq_some_iff {n : Int} {i : Index} : ofInt? n = some i ↔ i.val = n := by
  constructor
  · intro h
    simp only [ofInt?] at h
    split at h
    · cases h
      rfl
    · cases h
  · rintro rfl
    exact ofInt?_val i

theorem ofInt?_eq_none_iff {n : Int} : ofInt? n = none ↔ n < leastWord ∨ greatestWord < n := by
  simp only [ofInt?]
  split
  · next h =>
    simp only [reduceCtorEq, false_iff]
    omega
  · next h =>
    simp only [true_iff]
    omega

end Index

/-- One step of a path. -/
inductive Step where
  /-- To the value under a key of a map. -/
  | key (name : String)
  /-- To the element at a position of an array. -/
  | index (i : Index)
  /-- Nowhere: the value itself. -/
  | here
deriving DecidableEq

/-- Stands before a quote or another of its kind inside a quoted key. -/
def backtick : Char := '\x60'

/-- A key's text with every backtick and single quote behind a backtick. -/
def escapeKey (name : List Char) : List Char :=
  name.flatMap fun c => if c = backtick ∨ c = Text.singleQuote then [backtick, c] else [c]

def writeKey (name : List Char) : List Char :=
  '[' :: Text.singleQuote :: (escapeKey name ++ [Text.singleQuote, ']'])

namespace Step

def write : Step → List Char
  | key name => writeKey name.toList
  | index i => '[' :: (Decimal.intDigits i.val ++ [']'])
  | here => "[self]".toList

def render (s : Step) : String := String.ofList s.write

/-- The name of a step's form, as its description shows it. -/
def formName : Step → String
  | key _ => "TextComponent"
  | index _ => "NumericComponent"
  | here => "SelfReferenceComponent"

/-- A step's form with its fields. -/
def describe : Step → String
  | key name => "TextComponent(kind='text', name=" ++ Text.quote name ++ ")"
  | index i => "NumericComponent(kind='numeric', index=" ++ String.ofList (Decimal.intDigits i.val) ++ ")"
  | here => "SelfReferenceComponent(kind='self')"

end Step

def writeSteps (steps : List Step) : List Char := steps.flatMap Step.write

def renderSteps (steps : List Step) : String := String.ofList (writeSteps steps)

end TreePath
