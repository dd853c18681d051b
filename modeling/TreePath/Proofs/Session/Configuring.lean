import Mathlib.Data.Nat.Find
import TreePath.Proofs.Session.Outcome

namespace TreePath.Configuring

open TreePath.Session (outcome final outcome_bind final_bind onLogger)

/-- The number that a level stands for. -/
inductive Denotes : Value → Int → Prop where
  | number (n : Int) : Denotes (.int n) n
  | truth (b : Bool) : Denotes (.bool b) (if b then 1 else 0)
  | name {s : String} {n : Int}
      (h : levelNumber? (String.ofList (Text.upper s.toList)) = some n) : Denotes (.str s) n

/-- The level asked for: that of the settings if none is given. -/
def wanted (settings : Settings) (level : Value) : Value :=
  if level.isNull then .str settings.level else level

/-- The logger behind a call that asked for this level. -/
def granted (logger : Logger) (n : Int) : Logger :=
  { { logger with level := n }.withHandler with configured := logger.configured + 1 }

inductive Action where
  | configure (level : Value)
  /-- Puts a name in the place of the level of the settings. -/
  | assign (name : String)

def perform : Action → SessionM Unit
  | .configure level => Session.configure level
  | .assign name => modify fun s => { s with settings := { s.settings with level := name } }

/-- The session behind a run of actions. One that fails does not end the run. -/
def after (s : Session) (actions : List Action) : Session :=
  actions.foldl (fun s action => final (perform action) s) s

/-- The action asks for a level that stands for this number. -/
def Grants (s : Session) : Action → Int → Prop
  | .configure level, n => Denotes (wanted s.settings level) n
  | .assign _, _ => False

/-- The action of this place in the run asks for a level that stands for this
number. -/
def GrantsAt (s : Session) (actions : List Action) (i : Nat) (n : Int) : Prop :=
  ∃ action, actions[i]? = some action ∧ Grants (after s (actions.take i)) action n

section Level

variable {level : Value} {n : Int} {f : LevelFault}

theorem levelOf_eq_ok_iff : Logger.levelOf level = .ok n ↔ Denotes level n := by
  constructor
  · intro h
    cases level with
    | int m =>
        cases h
        exact .number _
    | bool b =>
        cases h
        exact .truth b
    | str s =>
        rw [Logger.levelOf] at h
        split at h
        · rename_i hname
          cases h
          exact .name hname
        · cases h
    | _ => cases h
  · rintro (n | b | h)
    · rfl
    · rfl
    · simp only [Logger.levelOf, h]

theorem not_denotes_of_levelOf (h : Logger.levelOf level = .error f) (n : Int) :
    ¬ Denotes level n := by
  intro hn
  cases h.symm.trans (levelOf_eq_ok_iff.mpr hn)

theorem eq_unknownName_of_levelOf {s : String} (h : Logger.levelOf (.str s) = .error f) :
    f = .unknownName (String.ofList (Text.upper s.toList)) := by
  rw [Logger.levelOf] at h
  split at h <;> cases h
  rfl

instance (level : Value) (n : Int) : Decidable (Denotes level n) :=
  decidable_of_iff _ levelOf_eq_ok_iff

instance (s : Session) (n : Int) : (action : Action) → Decidable (Grants s action n)
  | .configure level => inferInstanceAs (Decidable (Denotes (wanted s.settings level) n))
  | .assign _ => .isFalse id

end Level

section Call

variable {s : Session} {level : Value} {n : Int} {f : LevelFault}

theorem handlers_granted_of_nil {logger : Logger} (h : logger.handlers = []) (n : Int) :
    (granted logger n).handlers = [logger.configured] := by
  simp [granted, Logger.withHandler, h]

theorem handlers_granted_of_ne_nil {logger : Logger} (h : logger.handlers ≠ []) (n : Int) :
    (granted logger n).handlers = logger.handlers := by
  simp [granted, Logger.withHandler, h]

theorem handlers_granted_ne_nil (logger : Logger) (n : Int) :
    (granted logger n).handlers ≠ [] := by
  by_cases h : logger.handlers = []
  · rw [handlers_granted_of_nil h]
    exact List.cons_ne_nil _ _
  · rwa [handlers_granted_of_ne_nil h]

theorem level_granted (logger : Logger) (n : Int) : (granted logger n).level = n := by
  unfold granted Logger.withHandler
  split <;> rfl

theorem configure_of_run {r : Except LevelFault Unit} {logger : Logger}
    (hrun : (Logger.configure s.settings level).run.run s.logger = (r, logger)) :
    outcome (Session.configure level) s = r.mapError .level ∧
      final (Session.configure level) s = { s with logger := logger } := by
  simp only [Session.configure, onLogger, outcome_bind, final_bind, Session.outcome_get,
    Session.final_get, hrun]
  cases r <;> exact ⟨rfl, rfl⟩

theorem configure_of_ok (h : Logger.levelOf (wanted s.settings level) = .ok n) :
    outcome (Session.configure level) s = .ok ⟨⟩ ∧
      final (Session.configure level) s = { s with logger := granted s.logger n } := by
  refine @configure_of_run s level (.ok ⟨⟩) _ ?_
  rw [wanted] at h
  rw [Logger.configure, Logger.setLevel, h]
  rfl

theorem configure_of_error (h : Logger.levelOf (wanted s.settings level) = .error f) :
    outcome (Session.configure level) s = .error (.level f) ∧
      final (Session.configure level) s = s := by
  refine @configure_of_run s level (.error f) s.logger ?_
  rw [wanted] at h
  rw [Logger.configure, Logger.setLevel, h]
  rfl

end Call

section Step

variable {s : Session} {action : Action} {n : Int}

theorem logger_perform_of_grants (h : Grants s action n) :
    (final (perform action) s).logger = granted s.logger n := by
  cases action with
  | configure level => exact congrArg Session.logger (configure_of_ok (levelOf_eq_ok_iff.mpr h)).2
  | assign name => exact h.elim

theorem logger_perform_of_not_grants (h : ∀ n, ¬ Grants s action n) :
    (final (perform action) s).logger = s.logger := by
  cases action with
  | configure level =>
      cases hlevel : Logger.levelOf (wanted s.settings level) with
      | ok n => exact absurd (levelOf_eq_ok_iff.mp hlevel) (h n)
      | error f => exact congrArg Session.logger (configure_of_error hlevel).2
  | assign name => rfl

end Step

section Run

variable {s : Session} {action : Action} {actions : List Action} {i j : Nat} {n : Int}

theorem after_append (s : Session) (first second : List Action) :
    after s (first ++ second) = after (after s first) second :=
  List.foldl_append

theorem after_take_succ (h : actions[i]? = some action) :
    after s (actions.take (i + 1)) = final (perform action) (after s (actions.take i)) := by
  rw [List.take_add_one, h, after_append]
  rfl

theorem after_take_append_drop (s : Session) (actions : List Action) (i : Nat) :
    after (after s (actions.take i)) (actions.drop i) = after s actions := by
  rw [← after_append, List.take_append_drop]

theorem grantsAt_zero_iff : GrantsAt s (action :: actions) 0 n ↔ Grants s action n := by
  simp [GrantsAt, after]

theorem grantsAt_succ_iff :
    GrantsAt s (action :: actions) (i + 1) n ↔
      GrantsAt (final (perform action) s) actions i n := by
  simp [GrantsAt, after]

theorem grantsAt_of_take (h : GrantsAt s (actions.take i) j n) : j < i ∧ GrantsAt s actions j n := by
  obtain ⟨action, haction, hgrants⟩ := h
  rw [List.getElem?_take] at haction
  split at haction
  · rename_i hj
    rw [List.take_take, Nat.min_eq_left (Nat.le_of_lt hj)] at hgrants
    exact ⟨hj, action, haction, hgrants⟩
  · cases haction

theorem grantsAt_of_drop (h : GrantsAt (after s (actions.take i)) (actions.drop i) j n) :
    GrantsAt s actions (i + j) n := by
  obtain ⟨action, haction, hgrants⟩ := h
  rw [List.getElem?_drop] at haction
  rw [← after_append, ← List.take_add] at hgrants
  exact ⟨action, haction, hgrants⟩

theorem logger_after_of_no_grant (h : ∀ i n, ¬ GrantsAt s actions i n) :
    (after s actions).logger = s.logger := by
  induction actions generalizing s with
  | nil => rfl
  | cons action actions ih =>
      have hfirst : ∀ n, ¬ Grants s action n := fun n hn => h 0 n (grantsAt_zero_iff.mpr hn)
      calc
        _ = (final (perform action) s).logger :=
          ih fun i n hn => h (i + 1) n (grantsAt_succ_iff.mpr hn)
        _ = s.logger := logger_perform_of_not_grants hfirst

theorem handlers_after_of_ne_nil (actions : List Action) (h : s.logger.handlers ≠ []) :
    (after s actions).logger.handlers = s.logger.handlers := by
  induction actions generalizing s with
  | nil => rfl
  | cons action actions ih =>
      have hstep : (final (perform action) s).logger.handlers = s.logger.handlers := by
        by_cases hgrants : ∃ n, Grants s action n
        · obtain ⟨n, hn⟩ := hgrants
          rw [logger_perform_of_grants hn, handlers_granted_of_ne_nil h]
        · rw [logger_perform_of_not_grants (not_exists.mp hgrants)]
      rw [← hstep]
      exact ih (by rwa [hstep])

theorem logger_after_take_succ (h : GrantsAt s actions i n) :
    (after s (actions.take (i + 1))).logger = granted (after s (actions.take i)).logger n := by
  obtain ⟨action, haction, hgrants⟩ := h
  rw [after_take_succ haction, logger_perform_of_grants hgrants]

theorem handlers_after_take (hclean : s.logger.handlers = []) (h : GrantsAt s actions i n)
    (hfirst : ∀ j < i, ∀ m, ¬ GrantsAt s actions j m) (k : Nat) :
    (after s (actions.take k)).logger.handlers = if k ≤ i then [] else [s.logger.configured] := by
  have hbefore : ∀ k ≤ i, (after s (actions.take k)).logger = s.logger := by
    intro k hk
    refine logger_after_of_no_grant fun j m hm => ?_
    obtain ⟨hj, hgrants⟩ := grantsAt_of_take hm
    exact hfirst j (Nat.lt_of_lt_of_le hj hk) m hgrants
  split
  · rename_i hk
    rw [hbefore k hk, hclean]
  · rename_i hk
    have hinstalled : (after s (actions.take (i + 1))).logger.handlers = [s.logger.configured] := by
      rw [logger_after_take_succ h, hbefore i (Nat.le_refl i), handlers_granted_of_nil hclean]
    have hmin : min (i + 1) k = i + 1 := by omega
    rw [← after_take_append_drop s (actions.take k) (i + 1), List.take_take, hmin,
      handlers_after_of_ne_nil _ (by simp [hinstalled]), hinstalled]

theorem level_after_of_last (h : GrantsAt s actions i n)
    (hlast : ∀ j, i < j → ∀ m, ¬ GrantsAt s actions j m) : (after s actions).logger.level = n := by
  have hnone : ∀ j m,
      ¬ GrantsAt (after s (actions.take (i + 1))) (actions.drop (i + 1)) j m := by
    intro j m hm
    exact hlast (i + 1 + j) (by omega) m (grantsAt_of_drop hm)
  rw [← after_take_append_drop s actions (i + 1), logger_after_of_no_grant hnone,
    logger_after_take_succ h, level_granted]

theorem exists_first_grant (h : ∃ i n, GrantsAt s actions i n) :
    ∃ i n, GrantsAt s actions i n ∧ ∀ j < i, ∀ m, ¬ GrantsAt s actions j m := by
  classical
  obtain ⟨n, hn⟩ := Nat.find_spec h
  refine ⟨Nat.find h, n, hn, ?_⟩
  intro j hj m hm
  exact Nat.find_min h hj ⟨m, hm⟩

end Run

/-- A call that configures gets the level that it asks for, or fails for want of one and
leaves the session as it was. From the first call on that succeeded there is one handler,
always the same, and the level is that of the last. -/
theorem configuring_is_idempotent_and_atomic (s : Session) (actions : List Action) :
    let start : Session := { s with logger := {} }
    let last := (after start actions).logger
    (∀ i level, actions[i]? = some (.configure level) →
      let now := after start (actions.take i)
      let next := after start (actions.take (i + 1))
      (∃ n, GrantsAt start actions i n ∧ outcome (Session.configure level) now = .ok ⟨⟩ ∧
        next.logger.level = n ∧ next.logger.handlers ≠ []) ∨
      ((∀ n, ¬ GrantsAt start actions i n) ∧ next = now ∧
        ∃ f, outcome (Session.configure level) now = .error (.level f) ∧
          ∀ name, wanted now.settings level = .str name →
            f = .unknownName (String.ofList (Text.upper name.toList)))) ∧
    last.handlers.length ≤ 1 ∧
    (last.handlers.length = 1 ↔ ∃ i n, GrantsAt start actions i n) ∧
    (∀ i n, GrantsAt start actions i n → (∀ j < i, ∀ m, ¬ GrantsAt start actions j m) →
      ∃ handler, ∀ k, (after start (actions.take k)).logger.handlers =
        if k ≤ i then [] else [handler]) ∧
    (∀ i n, GrantsAt start actions i n → (∀ j, i < j → ∀ m, ¬ GrantsAt start actions j m) →
      last.level = n) ∧
    ((∀ i n, ¬ GrantsAt start actions i n) → last = {}) := by
  intro start last
  have hcount : (∃ i n, GrantsAt start actions i n) → last.handlers.length = 1 := by
    intro hsome
    obtain ⟨i, n, hi, hfirst⟩ := exists_first_grant hsome
    have hlength : i < actions.length := by
      obtain ⟨action, haction, -⟩ := hi
      exact (List.getElem?_eq_some_iff.mp haction).1
    have hall := handlers_after_take rfl hi hfirst actions.length
    rw [List.take_length, if_neg (Nat.not_le_of_lt hlength)] at hall
    exact congrArg List.length hall
  have hnone : (∀ i n, ¬ GrantsAt start actions i n) → last = {} := logger_after_of_no_grant
  refine ⟨?_, ?_, ⟨?_, hcount⟩, ?_, fun i n hi hlast => level_after_of_last hi hlast, hnone⟩
  · intro i level haction now next
    have hnext : next = final (Session.configure level) now := after_take_succ haction
    cases hlevel : Logger.levelOf (wanted now.settings level) with
    | ok n =>
        obtain ⟨hok, hfinal⟩ := configure_of_ok hlevel
        refine Or.inl ⟨n, ⟨_, haction, levelOf_eq_ok_iff.mp hlevel⟩, hok, ?_, ?_⟩
        · rw [hnext, hfinal, level_granted]
        · rw [hnext, hfinal]
          exact handlers_granted_ne_nil _ _
    | error f =>
        obtain ⟨herror, hfinal⟩ := configure_of_error hlevel
        refine Or.inr ⟨?_, hnext.trans hfinal, f, herror, ?_⟩
        · rintro n ⟨action, haction', hgrants⟩
          cases haction.symm.trans haction'
          exact not_denotes_of_levelOf hlevel n hgrants
        · intro name hname
          rw [hname] at hlevel
          exact eq_unknownName_of_levelOf hlevel
  · by_cases hsome : ∃ i n, GrantsAt start actions i n
    · rw [hcount hsome]
    · rw [hnone fun i n hn => hsome ⟨i, n, hn⟩]
      decide
  · intro hone
    by_contra hsome
    rw [hnone fun i n hn => hsome ⟨i, n, hn⟩] at hone
    cases hone
  · intro i n hi hfirst
    exact ⟨_, handlers_after_take rfl hi hfirst⟩

theorem configuring_is_idempotent_and_atomic_between_failures :
    let actions : List Action :=
      [.configure (.str "chatty"), .assign "info", .configure .null, .configure (.int 5),
        .assign "loud", .configure .null]
    GrantsAt {} actions 2 20 ∧ GrantsAt {} actions 3 5 ∧
      (∃ handler, (after {} actions).logger.handlers = [handler] ∧
        (after {} (actions.take 2)).logger.handlers = [] ∧
        (after {} (actions.take 3)).logger.handlers = [handler]) ∧
      (after {} actions).logger.level = 5 := by
  intro actions
  have htwo : GrantsAt {} actions 2 20 := ⟨_, rfl, by decide +kernel⟩
  have hthree : GrantsAt {} actions 3 5 := ⟨_, rfl, by decide +kernel⟩
  have hchatty : Logger.levelOf (.str "chatty") = .error (.unknownName "CHATTY") := by
    decide +kernel
  have hloud : Logger.levelOf (wanted (after {} (actions.take 5)).settings .null) =
      .error (.unknownName "LOUD") := by
    decide +kernel
  have hfirst : ∀ j < 2, ∀ m, ¬ GrantsAt {} actions j m := by
    rintro (_ | _ | j) hj m ⟨action, haction, hgrants⟩
    · cases haction
      exact not_denotes_of_levelOf hchatty m hgrants
    · cases haction
      exact hgrants
    · omega
  have hlast : ∀ j, 3 < j → ∀ m, ¬ GrantsAt {} actions j m := by
    rintro (_ | _ | _ | _ | _ | _ | j) hj m ⟨action, haction, hgrants⟩
    iterate 4 omega
    · cases haction
      exact hgrants
    · cases haction
      exact not_denotes_of_levelOf hloud m hgrants
    · cases haction
  obtain ⟨-, -, -, hhandler, hlevel, -⟩ := configuring_is_idempotent_and_atomic {} actions
  obtain ⟨handler, hall⟩ := hhandler 2 20 htwo hfirst
  exact ⟨htwo, hthree, ⟨handler, hall 6, hall 2, hall 3⟩, hlevel 3 5 hthree hlast⟩

end TreePath.Configuring
