import TreePath.Path.Basic
import TreePath.Value.Equality

namespace TreePath

/-- A step together with the value it was applied to. -/
structure Visit where
  step : Step
  value : Value

/-- Why a step leads nowhere. -/
inductive Obstacle where
  | wrongKind (expected actual : Kind)
  | noElement
deriving DecidableEq, Repr

/-- Where a step leads from a value. -/
def Step.apply : Step → Value → Except Obstacle Value
  | here, v => .ok v
  | index i, v =>
    match v.items? with
    | none => .error (.wrongKind .array v.kind)
    | some items =>
      match element? items i.val with
      | some w => .ok w
      | none => .error .noElement
  | key name, v =>
    match v.entries? with
    | none => .error (.wrongKind .map v.kind)
    | some entries =>
      match Value.lookup? name entries with
      | some w => .ok w
      | none => .error .noElement

/-- A walk that was blocked: the trail before the last step, that step, and what blocked it. -/
structure Blocked where
  before : List Visit
  last : Visit
  obstacle : Obstacle

namespace Blocked

def trail (b : Blocked) : List Visit := b.before ++ [b.last]

/-- The number of the step that leads nowhere. -/
def failedStep (b : Blocked) : Nat := b.before.length

/-- The same walk with a trail in front. -/
def precededBy (visits : List Visit) (b : Blocked) : Blocked := { b with before := visits ++ b.before }

end Blocked

/-- Applies the steps one after the other: the value reached, and the trail. -/
def walk (v : Value) : List Step → Except Blocked (Value × List Visit)
  | [] => .ok (v, [])
  | s :: rest =>
    match s.apply v with
    | .error obstacle => .error ⟨[], ⟨s, v⟩, obstacle⟩
    | .ok w =>
      match walk w rest with
      | .error b => .error (b.precededBy [⟨s, v⟩])
      | .ok (target, trail) => .ok (target, ⟨s, v⟩ :: trail)

theorem walk_append (v : Value) (p q : List Step) :
    walk v (p ++ q) =
      match walk v p with
      | .error b => .error b
      | .ok (w, trail) =>
        match walk w q with
        | .error b => .error (b.precededBy trail)
        | .ok (target, more) => .ok (target, trail ++ more) := by
  induction p generalizing v with
  | nil =>
    simp only [List.nil_append, walk]
    cases walk v q <;> rfl
  | cons s p ih =>
    simp only [List.cons_append, walk]
    cases s.apply v with
    | error obstacle => rfl
    | ok w =>
      simp only [ih w]
      cases walk w p with
      | error b => rfl
      | ok r =>
        obtain ⟨u, trail⟩ := r
        cases h : walk u q <;> simp [h, Blocked.precededBy]

end TreePath
