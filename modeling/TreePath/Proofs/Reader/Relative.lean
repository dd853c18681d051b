import TreePath.Proofs.Reader.Access

namespace TreePath.Relative

open TreePath.Access
open TreePath.Composition
open TreePath.Result
open TreePath.Session (outcome)

/-- The value at a path from the reader at another. -/
def valueBelow (r : Reader) (p q : Path) (expected : Expected)
    (substitute : Value) : SessionM Value := do
  (← r.readerAt (.path p)).valueAt (.path q) expected substitute

/-- The second fault is what the first is called from so many steps above. -/
structure Below (depth : Nat) (f g : TraversalFault) : Prop where
  cause : g.cause = f.cause
  failedStep : g.failedStep = f.failedStep.map fun step => (depth : Int) + step

inductive FailsBelow (depth : Nat) : FetchError → FetchError → Prop where
  | traversal {f g : TraversalFault} (h : Below depth f g) :
      FailsBelow depth (.traversal f) (.traversal g)
  | tooLarge : FailsBelow depth .tooLarge .tooLarge

section Fetch

variable {root v : Value} {p : Path} {trail : List Visit}

theorem fetch_append_of_present (hp : resolve root p = .ok (v, trail)) (q : Path)
    (expected : Expected) (substitute : Value) :
    Agree (FailsBelow p.length) Eq (fetch v q expected substitute)
      (fetch root (p ++ q) expected substitute) := by
  rcases resolve_cases v q with ⟨f, hq⟩ | ⟨more, hq⟩ | ⟨w, more, hq, hw⟩
  · obtain ⟨k, hk, hwhole⟩ := resolve_append_of_ok_of_error hp hq
    rw [fetch_of_error hq, fetch_of_error hwhole]
    exact .error (.traversal ⟨rfl, by rw [hk]; rfl⟩)
  · rw [fetch_of_missing hq, fetch_of_missing (resolve_append_of_ok hp hq)]
    exact .error (.traversal ⟨rfl, rfl⟩)
  · rw [fetch_of_present hq hw, fetch_of_present (resolve_append_of_ok hp hq) hw]
    exact handOut_agrees (.traversal ⟨rfl, rfl⟩) .tooLarge

theorem fetch_append_of_missing (hp : resolve root p = .ok (.missing, trail))
    (q : Path) (expected : Expected) (substitute : Value) :
    ∃ f, fetch root (p ++ q) expected substitute = .error (.traversal f) := by
  cases hq : resolve .missing q with
  | error f =>
      obtain ⟨k, -, hwhole⟩ := resolve_append_of_ok_of_error hp hq
      exact ⟨_, fetch_of_error hwhole ..⟩
  | ok r =>
      obtain ⟨w, more⟩ := r
      obtain rfl : w = .missing := eq_missing_of_walk (resolve_eq_ok_iff.mp hq)
      exact ⟨_, fetch_of_missing (resolve_append_of_ok hp hq) ..⟩

end Fetch

section Outcome

variable {r : Reader} {p : Path}

theorem outcome_valueBelow_of_present {v : Value} {trail : List Visit}
    (h : resolve r.root p = .ok (v, trail)) (hv : v ≠ .missing) (q : Path)
    (expected : Expected) (substitute : Value) (s : Session) :
    outcome (valueBelow r p q expected substitute) s =
      (fetch v q expected substitute).mapError Failure.ofFetchError := by
  rw [valueBelow, Session.outcome_bind, outcome_readerAt_of_present h hv]
  exact outcome_valueAt ⟨v⟩ q expected _ substitute

theorem outcome_valueBelow_of_error {e : Failure} {s : Session}
    (h : outcome (r.readerAt (.path p)) s = .error e) (q : Path)
    (expected : Expected) (substitute : Value) :
    outcome (valueBelow r p q expected substitute) s = .error e := by
  rw [valueBelow, Session.outcome_bind, h]

theorem exists_fault_below {v : Value} {trail : List Visit}
    (h : resolve r.root p = .ok (v, trail)) (hv : v ≠ .missing) {q : Path}
    {expected : Expected} {substitute : Value} {s : Session} {f : TraversalFault}
    (hf : outcome (valueBelow r p q expected substitute) s =
      .error (.traversal f)) :
    ∃ g, outcome (r.valueAt (.path (p ++ q)) expected substitute) s =
      .error (.traversal g) ∧ Below p.length f g := by
  have hagree := fetch_append_of_present h q expected substitute
  rw [outcome_valueBelow_of_present h hv] at hf
  rw [outcome_valueAt]
  generalize fetch v q expected substitute = relative at hf hagree
  generalize fetch r.root (p ++ q) expected substitute = absolute at hagree ⊢
  cases hagree with
  | ok heq => cases hf
  | error hfails =>
      cases hfails with
      | tooLarge => cases hf
      | traversal hbelow =>
          cases hf
          exact ⟨_, rfl, hbelow⟩

end Outcome

/-- Both failures are faults of the traversal, or both are numbers too large. -/
inductive SameSort : Failure → Failure → Prop where
  | traversal (f g : TraversalFault) : SameSort (.traversal f) (.traversal g)
  | tooLarge : SameSort .tooLargeForFloat .tooLargeForFloat

theorem SameSort.of_failsBelow {depth : Nat} {e e' : FetchError}
    (h : FailsBelow depth e e') :
    SameSort (Failure.ofFetchError e) (Failure.ofFetchError e') := by
  cases h with
  | traversal _ => exact .traversal _ _
  | tooLarge => exact .tooLarge

theorem exists_fault_iff_of_agree {x y : Except Failure Value}
    (h : Agree SameSort Eq x y) :
    (∃ f, x = .error (.traversal f)) ↔ ∃ f, y = .error (.traversal f) := by
  cases h with
  | ok _ =>
      constructor
      · rintro ⟨f, ⟨⟩⟩
      · rintro ⟨f, ⟨⟩⟩
  | error hsort =>
      cases hsort with
      | traversal f g => exact ⟨fun _ => ⟨g, rfl⟩, fun _ => ⟨f, rfl⟩⟩
      | tooLarge =>
          constructor
          · rintro ⟨f, ⟨⟩⟩
          · rintro ⟨f, ⟨⟩⟩

theorem valueBelow_agrees (r : Reader) (p q : Path) (expected : Expected)
    (substitute : Value) (s : Session) :
    Agree SameSort Eq (outcome (valueBelow r p q expected substitute) s)
      (outcome (r.valueAt (.path (p ++ q)) expected substitute) s) := by
  rw [outcome_valueAt]
  rcases resolve_cases r.root p with ⟨f, h⟩ | ⟨trail, h⟩ | ⟨v, trail, h, hv⟩
  · rw [outcome_valueBelow_of_error (outcome_readerAt_of_error h s),
      fetch_of_error (resolve_append_of_error h q)]
    exact .error (.traversal _ _)
  · obtain ⟨g, hg⟩ := fetch_append_of_missing h q expected substitute
    rw [outcome_valueBelow_of_error (outcome_readerAt_of_missing h s), hg]
    exact .error (.traversal _ _)
  · rw [outcome_valueBelow_of_present h hv]
    exact (fetch_append_of_present h q expected substitute).mapError
      fun _ _ => SameSort.of_failsBelow

/-- Seen from the reader at a path, a second path hands out what both together hand out from
the root, and puts the traversal at fault exactly if they do: for the same cause, at a step
that is counted from the root on the other side. -/
theorem relative_readers_agree_with_whole_paths (r : Reader) (p q : Path)
    (expected : Expected) (substitute : Value) (s : Session) :
    let relative := outcome (valueBelow r p q expected substitute) s
    let absolute := outcome (r.valueAt (.path (p ++ q)) expected substitute) s
    (∀ v, relative = .ok v ↔ absolute = .ok v) ∧
    ((∃ f, relative = .error (.traversal f)) ↔
      ∃ f, absolute = .error (.traversal f)) ∧
    ∀ v trail, outcome (Session.resolve r.root p) s = .ok (v, trail) →
      v ≠ .missing → ∀ f, relative = .error (.traversal f) →
        ∃ g, absolute = .error (.traversal g) ∧ g.cause = f.cause ∧
          g.failedStep = f.failedStep.map fun step => (p.length : Int) + step := by
  intro relative absolute
  have hagree : Agree SameSort Eq relative absolute :=
    valueBelow_agrees r p q expected substitute s
  refine ⟨hagree.eq_ok_iff, exists_fault_iff_of_agree hagree, ?_⟩
  intro v trail hp hv f hf
  rw [outcome_resolve, mapError_eq_ok_iff] at hp
  obtain ⟨g, hg, hbelow⟩ := exists_fault_below hp hv hf
  exact ⟨g, hg, hbelow.cause, hbelow.failedStep⟩

theorem relative_readers_agree_with_whole_paths_past_null :
    let root : Value := .map [("a", .list [.null, .int 7])]
    let p : Path := ⟨[.key "a"]⟩
    let first : Step := .index ⟨0, by decide, by decide⟩
    let below : Path := ⟨[first, .key "b"]⟩
    let r : Reader := ⟨root⟩
    (∃ trail, outcome (Session.resolve root p) {} =
      .ok (.list [.null, .int 7], trail)) ∧
      Value.list [.null, .int 7] ≠ .missing ∧
      outcome (r.valueAt (.path (p ++ ⟨[first]⟩)) (.type .str) (.str "x")) {} =
        .ok (.str "x") ∧
      (∃ f g, outcome (valueBelow r p below .anything .missing) {} =
          .error (.traversal f) ∧ f.failedStep = some 1 ∧
        outcome (r.valueAt (.path (p ++ below)) .anything .missing) {} =
          .error (.traversal g) ∧ g.failedStep = some 2 ∧ g.cause = f.cause) ∧
      ∃ f g, outcome (valueBelow r p ⟨[first]⟩ (.type .int) .missing) {} =
          .error (.traversal f) ∧ f.failedStep = none ∧
        outcome (r.valueAt (.path (p ++ ⟨[first]⟩)) (.type .int) .missing) {} =
          .error (.traversal g) ∧ g.failedStep = none ∧ g.cause = f.cause := by
  intro root p first below r
  have hp : outcome (Session.resolve root p) {} =
      .ok (.list [.null, .int 7], [⟨.key "a", root⟩]) := rfl
  have hv : Value.list [.null, .int 7] ≠ .missing := nofun
  refine ⟨⟨_, hp⟩, hv, ?_, ?_, ?_⟩
  · exact ((relative_readers_agree_with_whole_paths r p ⟨[first]⟩ (.type .str)
      (.str "x") {}).1 _).mp rfl
  · obtain ⟨g, hg, hcause, hstep⟩ := (relative_readers_agree_with_whole_paths r p
      below .anything .missing {}).2.2 _ _ hp hv _ rfl
    exact ⟨_, g, rfl, rfl, hg, hstep, hcause⟩
  · obtain ⟨g, hg, hcause, hstep⟩ := (relative_readers_agree_with_whole_paths r p
      ⟨[first]⟩ (.type .int) .missing {}).2.2 _ _ hp hv _ rfl
    exact ⟨_, g, rfl, rfl, hg, hstep, hcause⟩

end TreePath.Relative
