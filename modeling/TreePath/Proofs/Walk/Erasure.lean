import TreePath.Proofs.Walk.Trail

/-!
Paths without the steps that stay where they are. Such a path leads where the whole
path leads and is blocked by what blocks that; its trail lacks the visits of the
steps left out, and its steps are numbered without them.
-/

namespace TreePath.Erasure

open TreePath.Access
open TreePath.Composition
open TreePath.Result
open TreePath.Trail
open TreePath.Session (outcome)

def erase (p : Path) : Path :=
  ⟨p.steps.filter (· ≠ .here)⟩

def eraseTrail (trail : List Visit) : List Visit :=
  trail.filter (·.step ≠ .here)

/-- A fault as the path without the steps that stay has it. -/
def eraseFault (f : TraversalFault) : TraversalFault where
  path := erase f.path
  trail := eraseTrail f.trail
  failedStep := f.failedStep.map fun k => k - (f.path.steps.take k.toNat).count .here
  cause := f.cause

def eraseFailure : Failure → Failure
  | .traversal f => .traversal (eraseFault f)
  | e => e

/-- A blocked walk with less of a trail. -/
def eraseBefore (b : Blocked) : Blocked :=
  { b with before := eraseTrail b.before }

section Walk

variable {v w : Value} {steps : List Step} {trail : List Visit} {b : Blocked}

theorem eraseTrail_cons_here (v : Value) (trail : List Visit) :
    eraseTrail (⟨.here, v⟩ :: trail) = eraseTrail trail :=
  rfl

theorem eraseTrail_cons_of_ne {step : Step} (h : step ≠ .here) (v : Value)
    (trail : List Visit) :
    eraseTrail (⟨step, v⟩ :: trail) = ⟨step, v⟩ :: eraseTrail trail :=
  List.filter_cons_of_pos (decide_eq_true h)

theorem eraseTrail_append (before after : List Visit) :
    eraseTrail (before ++ after) = eraseTrail before ++ eraseTrail after :=
  List.filter_append before after

theorem eraseBefore_precededBy {step : Step} (h : step ≠ .here) (v : Value)
    (b : Blocked) :
    eraseBefore (b.precededBy [⟨step, v⟩]) =
      (eraseBefore b).precededBy [⟨step, v⟩] := by
  simp only [eraseBefore, Blocked.precededBy, List.singleton_append,
    eraseTrail_cons_of_ne h]

theorem length_eraseTrail (trail : List Visit) :
    (eraseTrail trail).length + (trail.map (·.step)).count .here = trail.length := by
  induction trail with
  | nil => rfl
  | cons visit trail ih =>
      obtain ⟨step, v⟩ := visit
      by_cases h : step = .here
      · subst h
        rw [eraseTrail_cons_here, List.map_cons, List.count_cons_self, List.length_cons]
        omega
      · rw [eraseTrail_cons_of_ne h, List.map_cons, List.count_cons_of_ne h,
          List.length_cons, List.length_cons]
        omega

theorem walk_filter (v : Value) (steps : List Step) :
    walk v (steps.filter (· ≠ .here)) =
      match walk v steps with
      | .ok (w, trail) => .ok (w, eraseTrail trail)
      | .error b => .error (eraseBefore b) := by
  induction steps generalizing v with
  | nil => rfl
  | cons step rest ih =>
      by_cases hstep : step = .here
      · subst hstep
        have happly : Step.here.apply v = .ok v := rfl
        -- Behind the step both walks set out from the same value.
        rw [List.filter_cons_of_neg (by simp), ih, walk_cons_of_ok happly]
        cases walk v rest with
        | error b => rfl
        | ok r => rfl
      · rw [List.filter_cons, if_pos (decide_eq_true hstep)]
        cases happly : step.apply v with
        | error obstacle =>
            rw [walk_cons_of_error happly, walk_cons_of_error happly]
            rfl
        | ok w =>
            rw [walk_cons_of_ok happly, walk_cons_of_ok happly, ih]
            cases walk w rest with
            | error b => exact congrArg Except.error (eraseBefore_precededBy hstep v b).symm
            | ok r =>
                dsimp only
                rw [eraseTrail_cons_of_ne hstep]

theorem eraseTrail_of_blocked (h : walk v steps = .error b) :
    eraseTrail b.trail = (eraseBefore b).trail := by
  have hlast : b.last.step ≠ .here := by
    intro hstay
    obtain ⟨-, -, hobstacle⟩ := front_of_blocked h
    rw [hstay] at hobstacle
    cases hobstacle
  rw [Blocked.trail, eraseTrail_append]
  exact congrArg (eraseTrail b.before ++ ·) (eraseTrail_cons_of_ne hlast b.last.value [])

theorem failedStep_of_blocked (h : walk v steps = .error b) :
    b.failedStep = (eraseBefore b).failedStep + (steps.take b.failedStep).count .here := by
  obtain ⟨hfront, -, -⟩ := front_of_blocked h
  rw [← steps_of_walk hfront]
  exact (length_eraseTrail b.before).symm

end Walk

section Resolve

variable {root v : Value} {p : Path} {trail : List Visit} {b : Blocked}

theorem ofBlocked_eraseBefore (h : walk root p.steps = .error b) :
    TraversalFault.ofBlocked (erase p) (eraseBefore b) =
      eraseFault (TraversalFault.ofBlocked p b) := by
  have hstep := failedStep_of_blocked h
  have hnumber : ((eraseBefore b).failedStep : Int) =
      b.failedStep - (p.steps.take b.failedStep).count .here := by
    omega
  simp only [TraversalFault.ofBlocked, eraseFault, eraseTrail_of_blocked h, Option.map_some,
    Int.toNat_natCast, hnumber]
  rfl

theorem resolve_erase (root : Value) (p : Path) :
    resolve root (erase p) =
      match resolve root p with
      | .ok (v, trail) => .ok (v, eraseTrail trail)
      | .error f => .error (eraseFault f) := by
  rw [resolve, resolve]
  change (walk root (p.steps.filter (· ≠ .here))).mapError _ = _
  rw [walk_filter]
  cases h : walk root p.steps with
  | error b => exact congrArg Except.error (ofBlocked_eraseBefore h)
  | ok r => rfl

def eraseError : FetchError → FetchError
  | .traversal f => .traversal (eraseFault f)
  | .tooLarge => .tooLarge

theorem fetch_erase (root : Value) (p : Path) (expected : Expected) (substitute : Value) :
    fetch root (erase p) expected substitute =
      (fetch root p expected substitute).mapError eraseError := by
  have herase := resolve_erase root p
  rcases resolve_cases root p with ⟨f, h⟩ | ⟨trail, h⟩ | ⟨v, trail, h, hv⟩
  · rw [h] at herase
    rw [fetch_of_error h, fetch_of_error herase]
    rfl
  · rw [h] at herase
    rw [fetch_of_missing h, fetch_of_missing herase]
    rfl
  · rw [h] at herase
    rw [fetch_of_present h hv, fetch_of_present herase hv, handOut, handOut]
    cases expected.coerce? (substituteNull substitute v) with
    | error e => rfl
    | ok found => cases found <;> rfl

end Resolve

section Outcome

variable (r : Reader) (p : Path) (expected : Expected) (s : Session)

theorem outcome_valueAt_erase (substitute : Value) :
    outcome (r.valueAt (.path (erase p)) expected substitute) s =
      (outcome (r.valueAt (.path p) expected substitute) s).mapError eraseFailure := by
  rw [outcome_valueAt, outcome_valueAt, fetch_erase]
  cases fetch r.root p expected substitute with
  | ok v => rfl
  | error e => cases e <;> rfl

theorem outcome_valueOrDefault_erase (default : Value) :
    outcome (r.valueOrDefault (.path (erase p)) default expected) s =
      outcome (r.valueOrDefault (.path p) default expected) s := by
  rw [outcome_valueOrDefault, outcome_valueOrDefault, fetch_erase]
  cases fetch r.root p expected .missing with
  | ok v => rfl
  | error e => cases e <;> rfl

theorem outcome_optionalValueAt_erase (nullIsAbsent : Bool) :
    outcome (r.optionalValueAt (.path (erase p)) expected nullIsAbsent) s =
      outcome (r.optionalValueAt (.path p) expected nullIsAbsent) s := by
  rw [outcome_optionalValueAt, outcome_optionalValueAt, resolve_erase]
  cases resolve r.root p with
  | ok found => rfl
  | error f => rfl

end Outcome

/-- Steps that stay where they are can be left out of a path. It resolves to the same value
then, or the same step fails for the same reason, with its number less by those of them
before it. All that is handed out at the path is the same. -/
theorem steps_that_stay_are_erasable (root : Value) (p : Path) (s : Session) :
    (∀ v trail, outcome (Session.resolve root p) s = .ok (v, trail) →
      outcome (Session.resolve root (erase p)) s = .ok (v, eraseTrail trail)) ∧
    (∀ e, outcome (Session.resolve root p) s = .error e →
      ∃ (f g : TraversalFault) (k j : Nat) (step : Step),
        e = .traversal f ∧
        outcome (Session.resolve root (erase p)) s = .error (.traversal g) ∧
        g.path = erase p ∧ g.cause = f.cause ∧ g.trail = eraseTrail f.trail ∧
        f.failedStep = some (k : Int) ∧ g.failedStep = some (j : Int) ∧
        k = j + (p.steps.take k).count .here ∧
        p.steps[k]? = some step ∧ (erase p).steps[j]? = some step) ∧
    (∀ expected substitute,
      outcome (Reader.valueAt ⟨root⟩ (.path (erase p)) expected substitute) s =
        (outcome (Reader.valueAt ⟨root⟩ (.path p) expected substitute) s).mapError
          eraseFailure) ∧
    (∀ expected nullIsAbsent,
      outcome (Reader.optionalValueAt ⟨root⟩ (.path (erase p)) expected nullIsAbsent) s =
        outcome (Reader.optionalValueAt ⟨root⟩ (.path p) expected nullIsAbsent) s) ∧
    ∀ expected default,
      outcome (Reader.valueOrDefault ⟨root⟩ (.path (erase p)) default expected) s =
        outcome (Reader.valueOrDefault ⟨root⟩ (.path p) default expected) s := by
  refine ⟨?_, ?_, (outcome_valueAt_erase ⟨root⟩ p · s ·),
    (outcome_optionalValueAt_erase ⟨root⟩ p · s ·),
    (outcome_valueOrDefault_erase ⟨root⟩ p · s ·)⟩
  · intro v trail h
    rw [outcome_resolve, mapError_eq_ok_iff] at h ⊢
    rw [resolve_erase, h]
  · intro e he
    rw [outcome_resolve] at he
    obtain ⟨f, hf, rfl⟩ := mapError_eq_error_iff.mp he
    obtain ⟨b, hb, rfl⟩ := mapError_eq_error_iff.mp hf
    have herased : walk root (erase p).steps = .error (eraseBefore b) := by
      rw [erase, walk_filter, hb]
    obtain ⟨-, hstep, -⟩ := front_of_blocked hb
    obtain ⟨-, hsame, -⟩ := front_of_blocked herased
    refine ⟨_, .ofBlocked (erase p) (eraseBefore b), b.failedStep,
      (eraseBefore b).failedStep, b.last.step, rfl, ?_, rfl, rfl,
      (eraseTrail_of_blocked hb).symm, rfl, rfl, failedStep_of_blocked hb, hstep, hsame⟩
    rw [outcome_resolve, resolve, herased]
    rfl

theorem steps_that_stay_are_erasable_past_list_end :
    let items : Value := .list [.int 7, .null]
    let root : Value := .map [("a", items)]
    let last : Step := .index ⟨-1, by decide, by decide⟩
    let past : Step := .index ⟨2, by decide, by decide⟩
    let p : Path := ⟨[.here, .key "a", .here, .here, last, .here]⟩
    let q : Path := ⟨[.here, .key "a", .here, past, .here]⟩
    let whole : Expected := .type .int
    outcome (Session.resolve root (erase p)) {} =
        .ok (.null, [⟨.key "a", root⟩, ⟨last, items⟩]) ∧
      (∃ f g, outcome (Session.resolve root q) {} = .error (.traversal f) ∧
        outcome (Session.resolve root (erase q)) {} = .error (.traversal g) ∧
        f.failedStep = some 3 ∧ g.failedStep = some 1 ∧ g.cause = .noElement past ∧
        g.trail = [⟨.key "a", root⟩, ⟨past, items⟩]) ∧
      (∃ f, outcome (Reader.valueAt ⟨root⟩ (.path p) whole .missing) {} =
          .error (.traversal f) ∧
        outcome (Reader.valueAt ⟨root⟩ (.path (erase p)) whole .missing) {} =
          .error (.traversal (eraseFault f))) ∧
      outcome (Reader.optionalValueAt ⟨root⟩ (.path (erase q)) whole true) {} =
        outcome (Reader.optionalValueAt ⟨root⟩ (.path q) whole true) {} := by
  intro items root last past p q whole
  obtain ⟨hok, -, hvalue, -, -⟩ := steps_that_stay_are_erasable root p {}
  obtain ⟨-, herror, -, hoptional, -⟩ := steps_that_stay_are_erasable root q {}
  refine ⟨hok .null _ rfl, ?_, ?_, hoptional whole true⟩
  · obtain ⟨f, g, k, j, step, hf, hg, -, hcause, htrail, hk, hj, hnumber, -, -⟩ :=
      herror _ rfl
    cases hf
    cases hk
    obtain rfl : j = 1 := Nat.add_right_cancel hnumber.symm
    exact ⟨_, g, rfl, hg, rfl, hj, hcause, htrail⟩
  · exact ⟨_, rfl, hvalue whole .missing⟩

end TreePath.Erasure
