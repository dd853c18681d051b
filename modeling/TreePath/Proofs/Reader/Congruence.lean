import TreePath.Proofs.Reader.Access
import TreePath.Proofs.Value.Equality

namespace TreePath.Congruence

open TreePath.Access
open TreePath.Composition
open TreePath.Result
open TreePath.Session (outcome)
open TreePath.Value (Equal EqualEntries)

/-- The kinds that were found need not be the same, as a truth value equals a
number. -/
def SameObstacle : Obstacle → Obstacle → Prop
  | .wrongKind expected _, .wrongKind expected' _ => expected = expected'
  | .noElement, .noElement => True
  | _, _ => False

structure SameBlocked (b c : Blocked) : Prop where
  failedStep : b.failedStep = c.failedStep
  obstacle : SameObstacle b.obstacle c.obstacle

/-- Both faults are of one sort and came about at the same step. -/
structure SameFault (f g : TraversalFault) : Prop where
  reason : f.cause.reason = g.cause.reason
  failedStep : f.failedStep = g.failedStep

section Walk

variable {v w : Value}

theorem apply_agrees (h : v.Equal w) (step : Step) :
    Agree SameObstacle Equal (step.apply v) (step.apply w) := by
  cases step with
  | here => exact .ok h
  | index i =>
      have hitems := Value.items?_of_equal h
      rw [Step.apply, Step.apply]
      generalize v.items? = xs, w.items? = ys at hitems ⊢
      cases hitems with
      | none => exact .error rfl
      | some hall =>
          rename_i xs ys
          have hfound := Value.element?_forall₂ hall i.val
          dsimp only
          generalize element? xs i.val = x, element? ys i.val = y at hfound ⊢
          cases hfound with
          | none => exact .error trivial
          | some hxy => exact .ok hxy
  | key name =>
      have hentries := Value.entries?_of_equal h
      rw [Step.apply, Step.apply]
      generalize v.entries? = xs, w.entries? = ys at hentries ⊢
      cases hentries with
      | none => exact .error rfl
      | some hall =>
          rename_i xs ys
          have hfound := hall name
          dsimp only
          generalize Value.lookup? name xs = x, Value.lookup? name ys = y
            at hfound ⊢
          cases hfound with
          | none => exact .error trivial
          | some hxy => exact .ok hxy

theorem walk_agrees (h : v.Equal w) (steps : List Step) :
    Agree SameBlocked (fun x y => x.1.Equal y.1) (walk v steps) (walk w steps) := by
  induction steps generalizing v w with
  | nil => exact .ok h
  | cons step rest ih =>
      have hstep := apply_agrees h step
      rw [walk, walk]
      generalize step.apply v = x, step.apply w = y at hstep ⊢
      cases hstep with
      | error hobstacle => exact .error ⟨rfl, hobstacle⟩
      | ok hnext =>
          rename_i v' w'
          have hrest := ih hnext
          dsimp only
          generalize walk v' rest = x, walk w' rest = y at hrest ⊢
          cases hrest with
          | error hblocked =>
              refine .error ⟨?_, hblocked.obstacle⟩
              exact congrArg (· + 1) hblocked.failedStep
          | ok hend => exact .ok hend

theorem sameFault_of_sameBlocked (p : Path) {b c : Blocked} (h : SameBlocked b c) :
    SameFault (.ofBlocked p b) (.ofBlocked p c) := by
  obtain ⟨hstep, hobstacle⟩ := h
  refine ⟨?_, congrArg (fun k : Nat => some (k : Int)) hstep⟩
  rw [TraversalFault.ofBlocked, TraversalFault.ofBlocked]
  generalize b.obstacle = o, c.obstacle = o' at hobstacle ⊢
  cases o with
  | wrongKind expected actual =>
      cases o' with
      | wrongKind expected' actual' => rfl
      | noElement => cases hobstacle
  | noElement =>
      cases o' with
      | wrongKind expected' actual' => cases hobstacle
      | noElement => rfl

theorem resolve_agrees (h : v.Equal w) (p : Path) :
    Agree SameFault (fun x y => x.1.Equal y.1) (resolve v p) (resolve w p) :=
  (walk_agrees h p.steps).mapError fun _ _ => sameFault_of_sameBlocked p

end Walk

section Reader

/-- Both failures are faults of the traversal, of one sort and at the same step. -/
def FailAlike (e e' : Failure) : Prop :=
  ∃ f g, e = .traversal f ∧ e' = .traversal g ∧ SameFault f g

variable {r t : Reader}

theorem same_eq_true_iff : r.same t = true ↔ r.root.Equal t.root := by
  obtain ⟨v⟩ := r
  obtain ⟨w⟩ := t
  rw [Reader.same, Reader.isEmpty, Reader.isEmpty]
  cases hv : v.isMissing with
  | true =>
      obtain rfl := Value.isMissing_eq_true_iff.mp hv
      rfl
  | false =>
      cases hw : w.isMissing with
      | true =>
          obtain rfl := Value.isMissing_eq_true_iff.mp hw
          rw [Value.equal_missing_iff, ← Value.isMissing_eq_true_iff, hv]
          simp
      | false => rfl

theorem readerAt_agrees (h : r.root.Equal t.root) (p : Path) (s : Session) :
    Agree FailAlike (fun a b => a.same b = true)
      (outcome (r.readerAt (.path p)) s) (outcome (t.readerAt (.path p)) s) := by
  have hagree := resolve_agrees h p
  rw [outcome_readerAt, outcome_readerAt]
  generalize resolve r.root p = x, resolve t.root p = y at hagree ⊢
  cases hagree with
  | error hfault => exact .error ⟨_, _, rfl, rfl, hfault⟩
  | ok hvw =>
      dsimp only
      rw [Value.isMissing_of_equal hvw]
      split
      · exact .error ⟨_, _, rfl, rfl, rfl, rfl⟩
      · exact .ok (same_eq_true_iff.mpr hvw)

theorem isValidIndex_eq_of_equal (h : r.root.Equal t.root) (index : Value) :
    r.isValidIndex index = t.isValidIndex index := by
  have hitems := Value.items?_of_equal h
  rw [Reader.isValidIndex, Reader.isValidIndex]
  generalize r.root.items? = xs, t.root.items? = ys at hitems ⊢
  cases hitems with
  | none => rfl
  | some hall =>
      dsimp only
      rw [hall.length_eq]

theorem isKeyOf_eq_of_equalEntries {xs ys : List (String × Value)}
    (h : EqualEntries xs ys) (key : Value) : key.isKeyOf xs = key.isKeyOf ys := by
  cases key with
  | str name =>
      have hfound := h name
      rw [Value.isKeyOf, Value.isKeyOf]
      generalize Value.lookup? name xs = x, Value.lookup? name ys = y at hfound ⊢
      cases hfound with
      | none => rfl
      | some _ => rfl
  | _ => rfl

theorem isValidKey_eq_of_equal (h : r.root.Equal t.root) (key : Value) :
    r.isValidKey key = t.isValidKey key := by
  have hentries := Value.entries?_of_equal h
  rw [Reader.isValidKey, Reader.isValidKey]
  generalize r.root.entries? = xs, t.root.entries? = ys at hentries ⊢
  cases hentries with
  | none => rfl
  | some hall => exact isKeyOf_eq_of_equalEntries hall key

theorem same_of_found {x y : Option Value} (h : Option.Rel Equal x y) :
    Reader.same ⟨x.getD .missing⟩ ⟨y.getD .missing⟩ = true := by
  cases h with
  | none => rfl
  | some hvw => exact same_eq_true_iff.mpr hvw

theorem subscript_agrees (h : r.root.Equal t.root) (key : Value) :
    Agree Eq (fun a b => a.same b = true) (r.subscript key) (t.subscript key) := by
  cases key with
  | int i =>
      refine .ok ?_
      have hitems := Value.items?_of_equal h
      rw [Reader.atIndex, Reader.atIndex]
      generalize r.root.items? = xs, t.root.items? = ys at hitems ⊢
      cases hitems with
      | none => rfl
      | some hall => exact same_of_found (Value.element?_forall₂ hall i)
  | str name =>
      refine .ok ?_
      have hentries := Value.entries?_of_equal h
      rw [Reader.atKey, Reader.atKey]
      generalize r.root.entries? = xs, t.root.entries? = ys at hentries ⊢
      cases hentries with
      | none => rfl
      | some hall => exact same_of_found (hall name)
  | _ => exact .error rfl

end Reader

/-- A path leads to equal readers from equal ones or is at fault in both, in the same sort
of way and at the same step. A key is valid in both or in neither, and what is had by it is
equal. -/
theorem equal_readers_navigate_alike {r t : Reader} (h : r.same t = true)
    (s : Session) :
    (∀ p, Agree FailAlike (fun a b => a.same b = true)
      (outcome (r.readerAt (.path p)) s) (outcome (t.readerAt (.path p)) s)) ∧
    (∀ index, r.isValidIndex index = t.isValidIndex index) ∧
    (∀ key, r.isValidKey key = t.isValidKey key) ∧
    (∀ key, Agree Eq (fun a b => a.same b = true)
      (r.subscript key) (t.subscript key)) ∧
    Value.EqualityLaws := by
  have hroot : r.root.Equal t.root := same_eq_true_iff.mp h
  exact ⟨fun p => readerAt_agrees hroot p s, isValidIndex_eq_of_equal hroot,
    isValidKey_eq_of_equal hroot, subscript_agrees hroot, Value.equalityLaws⟩

theorem equal_readers_navigate_alike_in_view :
    let r : Reader :=
      ⟨.map [("a", .list [.bool true, .bytes [1]]), ("b", .float 2)]⟩
    let t : Reader :=
      ⟨.view [("b", .int 2), ("a", .list [.int 1, .buffer [1]])]⟩
    let last : Path := ⟨[.key "a", .index ⟨-1, by decide, by decide⟩]⟩
    let past : Path := ⟨[.key "a", .index ⟨2, by decide, by decide⟩]⟩
    r.same t = true ∧
      Reader.same ⟨.bytes [1]⟩ ⟨.buffer [1]⟩ = true ∧
      outcome (r.readerAt (.path last)) {} = .ok ⟨.bytes [1]⟩ ∧
      outcome (t.readerAt (.path last)) {} = .ok ⟨.buffer [1]⟩ ∧
      (∃ f g, outcome (r.readerAt (.path past)) {} = .error (.traversal f) ∧
        outcome (t.readerAt (.path past)) {} = .error (.traversal g) ∧
        f.cause.reason = g.cause.reason ∧ f.failedStep = g.failedStep) ∧
      r.isValidKey (.str "b") = t.isValidKey (.str "b") := by
  intro r t last past
  have h : r.same t = true := by decide +kernel
  obtain ⟨hpaths, -, hkeys, -⟩ := equal_readers_navigate_alike h {}
  refine ⟨h, ?_, rfl, rfl, ?_, hkeys (.str "b")⟩
  · cases hpaths last with
    | ok hsame => exact hsame
  · cases hpaths past with
    | error hfail =>
        obtain ⟨f, g, hf, hg, hfault⟩ := hfail
        exact ⟨f, g, congrArg _ hf, congrArg _ hg, hfault.reason, hfault.failedStep⟩

end TreePath.Congruence
