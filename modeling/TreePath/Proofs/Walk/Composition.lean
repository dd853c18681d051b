import TreePath.Proofs.Result
import TreePath.Proofs.Session.Outcome

namespace TreePath.Composition

open TreePath.Result
open TreePath.Session (outcome)

section Step

variable {v w : Value}

theorem apply_index_eq_ok_iff {i : Index} :
    (Step.index i).apply v = .ok w ↔
      ∃ items, v.items? = some items ∧ element? items i.val = some w := by
  rw [Step.apply]
  cases v.items? with
  | none => exact iff_of_false nofun nofun
  | some items =>
      simp only [Option.some.injEq, exists_eq_left']
      cases element? items i.val with
      | none => exact iff_of_false nofun nofun
      | some u => rw [Except.ok.injEq, Option.some.injEq]

theorem apply_key_eq_ok_iff {name : String} :
    (Step.key name).apply v = .ok w ↔
      ∃ entries, v.entries? = some entries ∧ Value.lookup? name entries = some w := by
  rw [Step.apply]
  cases v.entries? with
  | none => exact iff_of_false nofun nofun
  | some entries =>
      simp only [Option.some.injEq, exists_eq_left']
      cases Value.lookup? name entries with
      | none => exact iff_of_false nofun nofun
      | some u => rw [Except.ok.injEq, Option.some.injEq]

end Step

theorem walk_cons_of_error {v : Value} {s : Step} {obstacle : Obstacle}
    (h : s.apply v = .error obstacle) (rest : List Step) :
    walk v (s :: rest) = .error ⟨[], ⟨s, v⟩, obstacle⟩ := by
  rw [walk, h]

theorem walk_cons_of_ok {v w : Value} {s : Step} (h : s.apply v = .ok w)
    (rest : List Step) :
    walk v (s :: rest) =
      match walk w rest with
      | .error b => .error (b.precededBy [⟨s, v⟩])
      | .ok (target, trail) => .ok (target, ⟨s, v⟩ :: trail) := by
  cases hrest : walk w rest with
  | error b => simp only [walk, h, hrest]
  | ok r => simp only [walk, h, hrest]

theorem walk_cons_eq_ok_iff {v target : Value} {s : Step} {rest : List Step}
    {trail : List Visit} :
    walk v (s :: rest) = .ok (target, trail) ↔
      ∃ w more, s.apply v = .ok w ∧ walk w rest = .ok (target, more) ∧
        ⟨s, v⟩ :: more = trail := by
  constructor
  · intro h
    cases hs : s.apply v with
    | error obstacle =>
        rw [walk_cons_of_error hs] at h
        cases h
    | ok w =>
        rw [walk_cons_of_ok hs] at h
        cases hrest : walk w rest with
        | error b =>
            rw [hrest] at h
            cases h
        | ok r =>
            rw [hrest] at h
            cases h
            exact ⟨w, _, rfl, hrest, rfl⟩
  · rintro ⟨w, more, hs, hrest, rfl⟩
    rw [walk_cons_of_ok hs, hrest]

theorem steps_of_walk {v w : Value} {steps : List Step} {trail : List Visit}
    (h : walk v steps = .ok (w, trail)) : trail.map (·.step) = steps := by
  induction steps generalizing v w trail with
  | nil =>
      cases h
      rfl
  | cons s rest ih =>
      obtain ⟨u, more, -, hrest, rfl⟩ := walk_cons_eq_ok_iff.mp h
      rw [List.map_cons, ih hrest]

theorem walk_preserves {P : Value → Prop}
    (hstep : ∀ (s : Step) (v w : Value), P v → s.apply v = .ok w → P w) {v w : Value}
    {steps : List Step} {trail : List Visit} (hv : P v)
    (h : walk v steps = .ok (w, trail)) : P w := by
  induction steps generalizing v w trail with
  | nil =>
      cases h
      exact hv
  | cons s rest ih =>
      obtain ⟨u, more, hs, hrest, -⟩ := walk_cons_eq_ok_iff.mp h
      exact ih (hstep s v u hv hs) hrest

theorem walk_of_forall_here {steps : List Step} (h : ∀ s ∈ steps, s = .here) (v : Value) :
    walk v steps = .ok (v, steps.map fun s => ⟨s, v⟩) := by
  induction steps with
  | nil => rfl
  | cons s rest ih =>
      obtain rfl : s = .here := h s List.mem_cons_self
      have hrest := ih fun s' hs' => h s' (List.mem_cons_of_mem _ hs')
      exact walk_cons_eq_ok_iff.mpr ⟨v, _, rfl, hrest, rfl⟩

theorem forall_here_of_walk_missing {w : Value} {steps : List Step} {trail : List Visit}
    (h : walk .missing steps = .ok (w, trail)) : ∀ s ∈ steps, s = .here := by
  induction steps generalizing w trail with
  | nil => exact List.forall_mem_nil _
  | cons s rest ih =>
      obtain ⟨u, more, hs, hrest, -⟩ := walk_cons_eq_ok_iff.mp h
      cases s with
      | here =>
          cases hs
          exact List.forall_mem_cons.mpr ⟨rfl, ih hrest⟩
      | index i => cases hs
      | key name => cases hs

theorem eq_missing_of_walk {w : Value} {steps : List Step} {trail : List Visit}
    (h : walk .missing steps = .ok (w, trail)) : w = .missing := by
  have hstay := walk_of_forall_here (forall_here_of_walk_missing h) .missing
  rw [h] at hstay
  cases hstay
  rfl

theorem length_trail_of_walk {v w : Value} {steps : List Step} {trail : List Visit}
    (h : walk v steps = .ok (w, trail)) : trail.length = steps.length := by
  rw [← steps_of_walk h, List.length_map]

theorem ofBlocked_precededBy (p q : Path) (trail : List Visit) (b : Blocked) :
    TraversalFault.ofBlocked p (b.precededBy trail) =
      { path := p
        trail := trail ++ (TraversalFault.ofBlocked q b).trail
        failedStep := some ((trail.length : Int) + b.failedStep)
        cause := (TraversalFault.ofBlocked q b).cause } := by
  simp only [TraversalFault.ofBlocked, Blocked.precededBy, Blocked.trail,
    Blocked.failedStep, List.append_assoc, List.length_append, Int.natCast_add]

theorem resolve_append_of_error {root : Value} {p : Path} {f : TraversalFault}
    (h : resolve root p = .error f) (q : Path) :
    resolve root (p ++ q) = .error { f with path := p ++ q } := by
  obtain ⟨b, hb, rfl⟩ := mapError_eq_error_iff.mp h
  refine mapError_eq_error_iff.mpr ⟨b, ?_, rfl⟩
  rw [Path.steps_append, walk_append, hb]

theorem resolve_append_of_ok {root v w : Value} {p q : Path}
    {trail more : List Visit} (hp : resolve root p = .ok (v, trail))
    (hq : resolve v q = .ok (w, more)) :
    resolve root (p ++ q) = .ok (w, trail ++ more) := by
  have hwalk := mapError_eq_ok_iff.mp hp
  have hmore := mapError_eq_ok_iff.mp hq
  refine mapError_eq_ok_iff.mpr ?_
  rw [Path.steps_append, walk_append, hwalk]
  simp only [hmore]

theorem resolve_append_of_ok_of_error {root v : Value} {p q : Path}
    {trail : List Visit} {f : TraversalFault} (hp : resolve root p = .ok (v, trail))
    (hq : resolve v q = .error f) :
    ∃ k : Nat, f.failedStep = some (k : Int) ∧
      resolve root (p ++ q) = .error
        { path := p ++ q
          trail := trail ++ f.trail
          failedStep := some ((p.length : Int) + k)
          cause := f.cause } := by
  have hwalk := mapError_eq_ok_iff.mp hp
  obtain ⟨b, hb, rfl⟩ := mapError_eq_error_iff.mp hq
  refine ⟨b.failedStep, rfl,
    mapError_eq_error_iff.mpr ⟨b.precededBy trail, ?_, ?_⟩⟩
  · rw [Path.steps_append, walk_append, hwalk]
    simp only [hb]
  · rw [ofBlocked_precededBy (p ++ q) q trail b, length_trail_of_walk hwalk]
    rfl

theorem resolve_eq_ok_iff {root v : Value} {p : Path} {trail : List Visit} :
    resolve root p = .ok (v, trail) ↔ walk root p.steps = .ok (v, trail) :=
  mapError_eq_ok_iff

theorem outcome_resolve (root : Value) (p : Path) (s : Session) :
    outcome (Session.resolve root p) s =
      (resolve root p).mapError Failure.traversal := by
  rw [Session.resolve]
  cases resolve root p with
  | error f => rfl
  | ok r => rfl

/-- A fault in the first part of a path is the fault of the whole. Behind a first part that
resolves the second goes on from the value there: the trails add up, and a fault keeps its
cause and counts its step from the length of the first part on. -/
theorem resolve_along_concatenation (root : Value) (p q : Path) (s : Session) :
    (∀ e, outcome (Session.resolve root p) s = .error e →
      ∃ f, e = .traversal f ∧
        outcome (Session.resolve root (p ++ q)) s =
          .error (.traversal { f with path := p ++ q })) ∧
    ∀ v trail, outcome (Session.resolve root p) s = .ok (v, trail) →
      (∀ w more, outcome (Session.resolve v q) s = .ok (w, more) →
        outcome (Session.resolve root (p ++ q)) s = .ok (w, trail ++ more)) ∧
      ∀ e, outcome (Session.resolve v q) s = .error e →
        ∃ (f : TraversalFault) (k : Nat),
          e = .traversal f ∧ f.failedStep = some (k : Int) ∧
          outcome (Session.resolve root (p ++ q)) s =
            .error (.traversal
              { path := p ++ q
                trail := trail ++ f.trail
                failedStep := some ((p.length : Int) + k)
                cause := f.cause }) := by
  simp only [outcome_resolve, mapError_eq_ok_iff]
  refine ⟨?_, ?_⟩
  · intro e he
    obtain ⟨f, hf, rfl⟩ := mapError_eq_error_iff.mp he
    exact ⟨f, rfl, mapError_eq_error_iff.mpr ⟨_, resolve_append_of_error hf q, rfl⟩⟩
  · intro v trail hp
    refine ⟨fun w more hq => resolve_append_of_ok hp hq, ?_⟩
    intro e he
    obtain ⟨f, hf, rfl⟩ := mapError_eq_error_iff.mp he
    obtain ⟨k, hk, hwhole⟩ := resolve_append_of_ok_of_error hp hf
    exact ⟨f, k, rfl, hk, mapError_eq_error_iff.mpr ⟨_, hwhole, rfl⟩⟩

theorem resolve_along_concatenation_past_list_end :
    let items : Value := .list [.int 7]
    let root : Value := .map [("a", items)]
    let p : Path := ⟨[.key "a"]⟩
    let last : Path := ⟨[.index ⟨-1, by decide, by decide⟩]⟩
    let past : Step := .index ⟨1, by decide, by decide⟩
    outcome (Session.resolve root p) {} = .ok (items, [⟨.key "a", root⟩]) ∧
      outcome (Session.resolve root (p ++ last)) {} =
        .ok (.int 7, [⟨.key "a", root⟩] ++ [⟨last.steps[0], items⟩]) ∧
      outcome (Session.resolve root (p ++ ⟨[.here, past, .here]⟩)) {} =
        .error (.traversal
          { path := ⟨[.key "a", .here, past, .here]⟩
            trail := [⟨.key "a", root⟩] ++ [⟨.here, items⟩, ⟨past, items⟩]
            failedStep := some 2
            cause := .noElement past }) ∧
      outcome (Session.resolve items (p ++ last)) {} =
        .error (.traversal
          { path := p ++ last
            trail := [⟨.key "a", items⟩]
            failedStep := some 0
            cause := .wrongType (.kind .map) .array }) := by
  intro items root p last past
  have hp : outcome (Session.resolve root p) {} = .ok (items, [⟨.key "a", root⟩]) := rfl
  refine ⟨hp, ?_, ?_, ?_⟩
  · exact ((resolve_along_concatenation root p last {}).2 _ _ hp).1 _ _ rfl
  · obtain ⟨f, k, hf, hk, hwhole⟩ :=
      ((resolve_along_concatenation root p ⟨[.here, past, .here]⟩ {}).2 _ _ hp).2 _ rfl
    cases hf
    cases hk
    exact hwhole
  · obtain ⟨f, hf, hwhole⟩ := (resolve_along_concatenation items p last {}).1 _ rfl
    cases hf
    exact hwhole

end TreePath.Composition
