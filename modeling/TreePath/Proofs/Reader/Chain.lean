import TreePath.Proofs.Walk.Composition
import TreePath.Reader

namespace TreePath.Chain

open TreePath.Composition
open TreePath.Result
open TreePath.Session (outcome)

/-- A key that has a step: any text, or a whole number of 64 signed bits. -/
inductive Subscript where
  | name (key : String)
  | place (i : Index)

def Subscript.toValue : Subscript → Value
  | name key => .str key
  | place i => .int i.val

def Subscript.step : Subscript → Step
  | name key => .key key
  | place i => .index i

def pathOf (keys : List Subscript) : Path :=
  ⟨keys.map Subscript.step⟩

/-- Subscripting with one key after the other. -/
def chain (r : Reader) (keys : List Value) : Except Misuse Reader :=
  keys.foldlM Reader.subscript r

/-- The reader of what a step found, empty if it led nowhere. -/
def found (result : Except Obstacle Value) : Reader :=
  match result with
  | .ok v => ⟨v⟩
  | .error _ => Reader.empty

theorem found_apply_place (r : Reader) (i : Index) :
    found ((Step.index i).apply r.root) = r.atIndex i.val := by
  rw [Step.apply, Reader.atIndex]
  cases r.root.items? with
  | none => rfl
  | some items =>
      dsimp only
      cases element? items i.val with
      | none => rfl
      | some w => rfl

theorem found_apply_name (r : Reader) (key : String) :
    found ((Step.key key).apply r.root) = r.atKey key := by
  rw [Step.apply, Reader.atKey]
  cases r.root.entries? with
  | none => rfl
  | some entries =>
      dsimp only
      cases Value.lookup? key entries with
      | none => rfl
      | some w => rfl

theorem subscript_toValue (r : Reader) (k : Subscript) :
    r.subscript k.toValue = .ok (found (k.step.apply r.root)) := by
  cases k with
  | name key => exact congrArg Except.ok (found_apply_name r key).symm
  | place i => exact congrArg Except.ok (found_apply_place r i).symm

theorem chain_cons (r : Reader) (k : Subscript) (keys : List Subscript) :
    chain r ((k :: keys).map Subscript.toValue) =
      chain (found (k.step.apply r.root)) (keys.map Subscript.toValue) := by
  rw [chain, List.map_cons, List.foldlM_cons, subscript_toValue]
  rfl

theorem found_apply_missing (k : Subscript) :
    found (k.step.apply .missing) = Reader.empty := by
  cases k <;> rfl

theorem chain_empty (keys : List Subscript) :
    chain Reader.empty (keys.map Subscript.toValue) = .ok Reader.empty := by
  induction keys with
  | nil => rfl
  | cons k keys ih =>
      rw [chain_cons, Reader.empty, found_apply_missing]
      exact ih

/-- A chain ends at the value that the walk of its keys reaches, and is empty if
that walk is blocked. -/
theorem chain_eq (r : Reader) (keys : List Subscript) :
    chain r (keys.map Subscript.toValue) =
      match walk r.root (keys.map Subscript.step) with
      | .ok (v, _) => .ok ⟨v⟩
      | .error _ => .ok Reader.empty := by
  induction keys generalizing r with
  | nil => rfl
  | cons k keys ih =>
      rw [chain_cons, List.map_cons]
      cases hk : k.step.apply r.root with
      | error obstacle =>
          rw [walk_cons_of_error hk]
          exact chain_empty keys
      | ok w =>
          rw [walk_cons_of_ok hk, found, ih]
          cases walk w (keys.map Subscript.step) with
          | error b => rfl
          | ok target => rfl

theorem isOk_resolve_singleton (root : Value) (step : Step) (s : Session) :
    (outcome (Session.resolve root ⟨[step]⟩) s).isOk = (step.apply root).isOk := by
  rw [outcome_resolve, resolve]
  cases h : step.apply root with
  | error obstacle => rw [walk_cons_of_error h]; rfl
  | ok w => rw [walk_cons_of_ok h]; rfl

theorem isSome_absolute? {α : Type} (items : List α) (i : Int) :
    (absolute? i items.length).isSome = (element? items i).isSome := by
  rw [Bool.eq_iff_iff, Option.isSome_iff_ne_none, Option.isSome_iff_ne_none, ne_eq,
    ne_eq, element?_eq_none_iff]

theorem isValidIndex_eq (r : Reader) (i : Index) :
    r.isValidIndex (.int i.val) = .ok ((Step.index i).apply r.root).isOk := by
  rw [Reader.isValidIndex, Step.apply]
  cases r.root.items? with
  | none => rfl
  | some items =>
      dsimp only
      rw [Value.absolutePlace?_int, Except.map, Option.isSome_map, isSome_absolute?]
      cases element? items i.val with
      | none => rfl
      | some w => rfl

theorem isValidKey_eq (r : Reader) (key : String) :
    r.isValidKey (.str key) = .ok ((Step.key key).apply r.root).isOk := by
  rw [Reader.isValidKey, Step.apply]
  cases r.root.entries? with
  | none => rfl
  | some entries =>
      dsimp only
      rw [Value.isKeyOf]
      cases Value.lookup? key entries with
      | none => rfl
      | some w => rfl

theorem isValid_eq_isOk_resolve (r : Reader) (s : Session) :
    (∀ i : Index, r.isValidIndex (.int i.val) =
        .ok (outcome (Session.resolve r.root ⟨[.index i]⟩) s).isOk) ∧
      ∀ key, r.isValidKey (.str key) =
        .ok (outcome (Session.resolve r.root ⟨[.key key]⟩) s).isOk := by
  simp only [isOk_resolve_singleton]
  exact ⟨isValidIndex_eq r, isValidKey_eq r⟩

/-- A chain of subscripts is empty exactly if the path of its keys does not resolve or
resolves to the absent value, and else holds the value there. At every point of a chain a
key is valid exactly if the path of that key alone resolves. -/
theorem chain_agrees_with_path (r : Reader) (keys : List Subscript) (s : Session) :
    ∃ last, chain r (keys.map Subscript.toValue) = .ok last ∧
      (last.isEmpty = true ↔
        (∃ f, outcome (Session.resolve r.root (pathOf keys)) s =
          .error (.traversal f)) ∨
        ∃ trail, outcome (Session.resolve r.root (pathOf keys)) s =
          .ok (.missing, trail)) ∧
      (last.isEmpty = false →
        ∃ trail, outcome (Session.resolve r.root (pathOf keys)) s =
          .ok (last.root, trail)) ∧
      (∀ i : Index, last.isValidIndex (.int i.val) =
        .ok (outcome (Session.resolve last.root ⟨[.index i]⟩) s).isOk) ∧
      ∀ key, last.isValidKey (.str key) =
        .ok (outcome (Session.resolve last.root ⟨[.key key]⟩) s).isOk := by
  have hchain := chain_eq r keys
  cases hwalk : walk r.root (keys.map Subscript.step) with
  | error b =>
      rw [hwalk] at hchain
      have hfault : outcome (Session.resolve r.root (pathOf keys)) s =
          .error (.traversal (.ofBlocked (pathOf keys) b)) := by
        rw [outcome_resolve, resolve, pathOf, hwalk]
        rfl
      refine ⟨Reader.empty, hchain, ?_, nofun,
        isValid_eq_isOk_resolve Reader.empty s⟩
      exact iff_of_true rfl (Or.inl ⟨_, hfault⟩)
  | ok target =>
      obtain ⟨v, trail⟩ := target
      rw [hwalk] at hchain
      have hvalue : outcome (Session.resolve r.root (pathOf keys)) s =
          .ok (v, trail) := by
        rw [outcome_resolve, resolve, pathOf, hwalk]
        rfl
      refine ⟨⟨v⟩, hchain, ?_, fun _ => ⟨trail, hvalue⟩,
        isValid_eq_isOk_resolve ⟨v⟩ s⟩
      rw [hvalue, Reader.isEmpty, Value.isMissing_eq_true_iff]
      constructor
      · rintro rfl
        exact Or.inr ⟨trail, rfl⟩
      · rintro (⟨f, hf⟩ | ⟨trail', htrail⟩)
        · cases hf
        · cases htrail
          rfl

theorem chain_agrees_with_path_in_view :
    let root : Value := .view [("a", .tuple [.int 5, .missing])]
    let kept : List Subscript := [.name "a", .place ⟨-2, by decide, by decide⟩]
    let lost : List Subscript :=
      [.name "a", .place ⟨1, by decide, by decide⟩, .name "b"]
    chain ⟨root⟩ (kept.map Subscript.toValue) = .ok ⟨.int 5⟩ ∧
      Reader.isEmpty ⟨.int 5⟩ = false ∧
      (∃ trail, outcome (Session.resolve root (pathOf kept)) {} =
        .ok (.int 5, trail)) ∧
      chain ⟨root⟩ (lost.map Subscript.toValue) = .ok Reader.empty ∧
      Reader.empty.isEmpty = true ∧
      ∃ f, outcome (Session.resolve root (pathOf lost)) {} =
        .error (.traversal f) := by
  intro root kept lost
  refine ⟨rfl, rfl, ?_, rfl, rfl, ?_⟩
  · obtain ⟨last, hlast, -, hvalue, -⟩ := chain_agrees_with_path ⟨root⟩ kept {}
    cases hlast
    exact hvalue rfl
  · obtain ⟨last, hlast, hempty, -⟩ := chain_agrees_with_path ⟨root⟩ lost {}
    cases hlast
    rcases hempty.mp rfl with hfault | ⟨trail, htrail⟩
    · exact hfault
    · cases htrail

end TreePath.Chain
