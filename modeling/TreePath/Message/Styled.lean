namespace TreePath

/-- A style from one character up to, but not including, another. -/
structure Span where
  start : Nat
  stop : Nat
  style : String
deriving DecidableEq, Repr

structure Styled where
  plain : List Char
  spans : List Span
deriving DecidableEq, Repr

namespace Styled

/-- Bell, backspace, vertical tab, form feed and carriage return. -/
def isDropped (c : Char) : Bool := [7, 8, 11, 12, 13].contains c.toNat

def clean (s : List Char) : List Char := s.filter fun c => !isDropped c

def empty : Styled := ⟨[], []⟩

def ofText (s : List Char) : Styled := ⟨clean s, []⟩

def length (t : Styled) : Nat := t.plain.length

/-- Styles the first `count` characters, as far as there are so many. A span is never empty. -/
def styleFirst (t : Styled) (style : String) (count : Nat) : Styled :=
  if style = "" ∨ t.length = 0 ∨ count = 0 then t
  else { t with spans := t.spans ++ [⟨0, min t.length count, style⟩] }

/-- Adds text; an empty style leaves no span. -/
def add (t : Styled) (s : List Char) (style : String) : Styled :=
  let added := clean s
  let spans := if s.isEmpty ∨ style = "" then [] else [⟨t.length, t.length + added.length, style⟩]
  ⟨t.plain ++ added, t.spans ++ spans⟩

/-- Adds a styled text, whose spans move along. -/
def append (t u : Styled) : Styled :=
  let moved := u.spans.map fun s => ⟨s.start + t.length, s.stop + t.length, s.style⟩
  ⟨t.plain ++ u.plain, t.spans ++ moved⟩

end Styled

end TreePath
