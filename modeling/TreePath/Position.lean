/-!
Positions in sequences. A negative position counts from the end. A slice names positions by where to
start, where to stop and how far to step, each of which may be left open.
-/

namespace TreePath

/-- The least and the greatest whole number of 64 signed bits. -/
def leastWord : Int := -9223372036854775808

def greatestWord : Int := 9223372036854775807

/-- The place of position `i` among `length`, counted from the front; none outside `[-length, length)`. -/
def absolute? (i length : Int) : Option Int :=
  let place := if i < 0 then length + i else i
  if 0 ≤ place ∧ place < length then some place else none

theorem absolute?_eq_none_iff {i length : Int} (h : 0 ≤ length) :
    absolute? i length = none ↔ i < -length ∨ length ≤ i := by
  unfold absolute?
  split <;> simp only [ite_eq_right_iff, reduceCtorEq, imp_false, not_and] <;> omega

theorem bounds_of_absolute? {i length place : Int} (h : absolute? i length = some place) :
    0 ≤ place ∧ place < length := by
  unfold absolute? at h
  split at h <;> simp only [Option.ite_none_right_eq_some, Option.some.injEq] at h <;> omega

/-- The element at a position. -/
def element? {α : Type} (xs : List α) (i : Int) : Option α :=
  (absolute? i xs.length).bind fun place => xs[place.toNat]?

theorem element?_eq_none_iff {α : Type} {xs : List α} {i : Int} :
    element? xs i = none ↔ absolute? i xs.length = none := by
  unfold element?
  cases h : absolute? i xs.length with
  | none => simp
  | some place =>
    have := bounds_of_absolute? h
    simp only [Option.bind_some, List.getElem?_eq_none_iff, reduceCtorEq, iff_false]
    omega

/-- Why a place of a sequence cannot be had. -/
inductive PlaceFault where
  | outOfRange
  /-- The position does not even fit 64 signed bits. -/
  | tooWide
deriving DecidableEq, Repr

def PlaceFault.message : PlaceFault → String
  | outOfRange => "tuple index out of range"
  | tooWide => "cannot fit 'int' into an index-sized integer"

/-- The element at a position, or what is wrong with the position. -/
def elementAt {α : Type} (xs : List α) (i : Int) : Except PlaceFault α :=
  if leastWord ≤ i ∧ i ≤ greatestWord then
    match element? xs i with
    | some x => .ok x
    | none => .error .outOfRange
  else .error .tooWide

structure Slice where
  start : Option Int
  stop : Option Int
  step : Option Int
deriving DecidableEq, Repr

/-- A slice does not step by zero. -/
structure ZeroStep where
deriving DecidableEq, Repr

namespace Slice

/-- A bound counted from the front, moved into `[low, high]`. -/
def clamp (low high length bound : Int) : Int :=
  let place := if bound < 0 then length + bound else bound
  max low (min high place)

/-- The number of steps of size `step` that fit before `distance` is used up. -/
def count (distance step : Int) : Nat :=
  if 0 < distance then ((distance - 1) / step + 1).toNat else 0

/-- The places that a slice with a step other than zero picks from `length`, in its order. -/
def places (s : Slice) (step : Int) (length : Nat) : List Int :=
  let n : Int := length
  if 0 < step then
    let start := clamp 0 n n (s.start.getD 0)
    let stop := clamp 0 n n (s.stop.getD n)
    (List.range (count (stop - start) step)).map fun (k : Nat) => start + k * step
  else
    let start := (s.start.map (clamp (-1) (n - 1) n)).getD (n - 1)
    let stop := (s.stop.map (clamp (-1) (n - 1) n)).getD (-1)
    (List.range (count (start - stop) (-step))).map fun (k : Nat) => start + k * step

def apply {α : Type} (s : Slice) (xs : List α) : Except ZeroStep (List α) :=
  let step := s.step.getD 1
  if step = 0 then .error ⟨⟩
  else .ok ((s.places step xs.length).filterMap fun place => xs[place.toNat]?)

end Slice

end TreePath
