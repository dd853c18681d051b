/-!
A memo of results by text. It may be bounded; then the result that was asked for the longest time ago
gives way first. Failures are counted and never kept.
-/

namespace TreePath

/-- The entries stand in order of their last request, the oldest first. -/
structure Memo (α : Type) where
  entries : List (String × α)
  hits : Nat
  misses : Nat
  bound : Option Int

/-- What an observer sees of a memo. -/
structure MemoInfo where
  hits : Nat
  misses : Nat
  size : Nat
  bound : Option Int
deriving DecidableEq, Repr

/-- A memo must have room for one entry. -/
structure BoundTooSmall where
deriving DecidableEq, Repr

/-- How a request was met. -/
inductive Answer (ε α : Type) where
  /-- From the entries. -/
  | held (a : α)
  /-- By reading the text, and the result was kept. -/
  | fresh (a : α)
  /-- By reading the text; a bound below zero then asked for more room than there is. -/
  | unkept (a : α)
  | failed (e : ε)

namespace Memo

variable {α ε : Type}

def ofBound (bound : Option Int) : Memo α := ⟨[], 0, 0, bound⟩

def create (bound : Option Int) : Except BoundTooSmall (Memo α) :=
  match bound with
  | none => .ok (ofBound none)
  | some n => if n < 1 then .error ⟨⟩ else .ok (ofBound (some n))

def size (m : Memo α) : Nat := m.entries.length

def keys (m : Memo α) : List String := m.entries.map (·.1)

def find? (m : Memo α) (key : String) : Option α :=
  (m.entries.find? fun e => e.1 == key).map (·.2)

def contains (m : Memo α) (key : String) : Bool := m.entries.any fun e => e.1 == key

def info (m : Memo α) : MemoInfo := ⟨m.hits, m.misses, m.size, m.bound⟩

def clear (m : Memo α) : Memo α := ofBound m.bound

/-- Nothing is evicted until the next entry is kept. -/
def setBound (m : Memo α) (bound : Option Int) : Memo α := { m with bound }

/-- The entries with one of them moved to, or put at, the end. -/
def putLast (entries : List (String × α)) (key : String) (a : α) : List (String × α) :=
  (entries.filter fun e => e.1 != key) ++ [(key, a)]

/-- The youngest entries, as many as the bound admits. -/
def shrink (bound : Option Int) (entries : List (String × α)) : List (String × α) :=
  match bound with
  | none => entries
  | some n => entries.drop (entries.length - n.toNat)

/-- Whether a bound can be met by evicting entries. -/
def canHold (bound : Option Int) : Bool :=
  match bound with
  | none => true
  | some n => 0 ≤ n

/-- Answers from the entries if it can, else reads the text and keeps the result. The order of an
unbounded memo's entries does not change on a hit. -/
def request (m : Memo α) (read : String → Except ε α) (key : String) : Answer ε α × Memo α :=
  match m.find? key with
  | some a =>
    let entries := if m.bound.isSome then putLast m.entries key a else m.entries
    (.held a, { m with entries, hits := m.hits + 1 })
  | none =>
    match read key with
    | .error e => (.failed e, { m with misses := m.misses + 1 })
    | .ok a =>
      let entries := shrink m.bound (putLast m.entries key a)
      (if canHold m.bound then .fresh a else .unkept a, { m with entries, misses := m.misses + 1 })

end Memo

end TreePath
