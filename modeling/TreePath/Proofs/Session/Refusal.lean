import TreePath.Proofs.Session.Bracket

/-!
Brackets that are not opened. The settings are changed before the memo is made, and
what would change them back begins behind that, so a bound that leaves no room stays
in the settings. Nothing else is left of the attempt.
-/

namespace TreePath.Bracket

open TreePath.Memo
open TreePath.Session

variable {α : Type} {bound : Option Int} {s : Session}

def withBound (bound : Option Int) (s : Session) : Session :=
  { s with settings := { s.settings with memoBound := bound } }

theorem withBound_eq_self_iff : withBound bound s = s ↔ s.settings.memoBound = bound := by
  constructor
  · intro h
    have hsettings := congrArg Session.settings h
    exact (congrArg Settings.memoBound hsettings).symm
  · rintro rfl
    rfl

theorem enter_of_not_legal (hbound : ¬ LegalBound bound) {n : Nat}
    (hs : s.installed = some n) :
    outcome (enter bound) s = .error .boundTooSmall ∧
      final (enter bound) s = withBound bound s := by
  obtain ⟨hnumber, hfound⟩ := defaultMemo_of_installed hs
  -- the bound is in the settings when the memo is made
  rcases createMemo_cases bound (withBound bound s) with
    ⟨-, houtcome, hfinal⟩ | ⟨hlegal, -⟩
  · rw [withBound] at houtcome hfinal
    simp only [enter, withBound, outcome_bind, final_bind, outcome_get, final_get,
      outcome_modify, final_modify, hnumber, hfound, houtcome, hfinal, and_self]
  · exact absurd hlegal hbound

theorem exists_error_of_enter_iff {n : Nat} (hs : s.installed = some n) :
    (∃ e, outcome (enter bound) s = .error e) ↔ ¬ LegalBound bound := by
  constructor
  · rintro ⟨e, he⟩ hbound
    rw [(enter_of_legal hbound hs).1] at he
    cases he
  · intro hbound
    exact ⟨_, (enter_of_not_legal hbound hs).1⟩

theorem outcome_parse_of_not_legal (hbound : ¬ LegalBound s.settings.memoBound)
    (hs : s.installed = none) (text : String) :
    outcome (parse text) s = .error .boundTooSmall := by
  have hdefault : outcome defaultMemo s = .error .boundTooSmall := by
    rcases createMemo_cases s.settings.memoBound s with ⟨-, houtcome, -⟩ | ⟨hlegal, -⟩
    · simp only [defaultMemo, outcome_bind, outcome_get, final_get, hs, houtcome]
    · exact absurd hlegal hbound
  rw [parse, outcome_bind, hdefault]

theorem final_leave_withBound {snapshot : Snapshot} {outer : List Snapshot}
    (hs : s.brackets = snapshot :: outer) :
    final leave (withBound bound s) = final leave s := by
  have hrebound : (withBound bound s).brackets = snapshot :: outer := hs
  rw [final_leave hs, final_leave hrebound]
  rfl

/-- Where a default memo exists, a bracket is refused exactly if its bound leaves no room.
Its body is not run, and of the whole session nothing changes but the bound in the settings,
which is the refused one. -/
theorem refused_bracket_changes_bound_alone (s : Session) (n : Nat)
    (hn : s.installed = some n) (bound : Option Int) (body : Nat → SessionM α) :
    let refused := final (enter bound) s
    ((∃ e, outcome (enter bound) s = .error e) ↔ ¬ LegalBound bound) ∧
      (¬ LegalBound bound →
        outcome (enter bound) s = .error .boundTooSmall ∧
        refused = { s with settings := { s.settings with memoBound := bound } } ∧
        outcome (bracketed bound body) s = .error .boundTooSmall ∧
        final (bracketed bound body) s = refused ∧
        (refused = s ↔ s.settings.memoBound = bound) ∧
        (∀ text, outcome (do install none; parse text) refused = .error .boundTooSmall) ∧
        (s.brackets ≠ [] → final leave refused = final leave s)) := by
  intro refused
  refine ⟨exists_error_of_enter_iff hn, ?_⟩
  intro hbound
  obtain ⟨houtcome, hrefused⟩ : outcome (enter bound) s = .error .boundTooSmall ∧
      refused = withBound bound s := enter_of_not_legal hbound hn
  refine ⟨houtcome, hrefused, ?_, ?_, ?_, ?_, ?_⟩
  · rw [outcome_bracketed, houtcome]
  · rw [final_bracketed, houtcome]
  · rw [hrefused, withBound_eq_self_iff]
  · intro text
    rw [hrefused]
    exact outcome_parse_of_not_legal (s := { withBound bound s with installed := none })
      hbound rfl text
  · intro hbrackets
    obtain ⟨snapshot, outer, hs⟩ := List.exists_cons_of_ne_nil hbrackets
    rw [hrefused, final_leave_withBound hs]

theorem refused_bracket_changes_bound_alone_within_bracket :
    let held : PathMemo := ⟨[("a", [.key "a"])], 2, 1, some 3⟩
    let s : Session :=
      { settings := ⟨some 3, "INFO", true⟩
        memos := [ofBound none, held]
        installed := some 1
        brackets := [⟨{}, 0⟩] }
    let refused := final (enter (some (-7))) s
    s.installed = some 1 ∧ ¬ LegalBound (some (-7)) ∧
      outcome (enter (some (-7))) s = .error .boundTooSmall ∧
      refused.settings = ⟨some (-7), "INFO", true⟩ ∧ refused.installed = some 1 ∧
      refused.memos = [ofBound none, held] ∧ refused ≠ s ∧
      (final leave refused).settings = {} := by
  intro held s refused
  have hbound : ¬ LegalBound (some (-7)) := by simp [LegalBound]
  obtain ⟨-, hrefusal⟩ :=
    refused_bracket_changes_bound_alone s 1 rfl (some (-7)) fun _ => pure ()
  obtain ⟨houtcome, hrefused, -, -, hself, -, hleave⟩ := hrefusal hbound
  refine ⟨rfl, hbound, houtcome, ?_, ?_, ?_, ?_, ?_⟩
  · exact congrArg Session.settings hrefused
  · exact congrArg Session.installed hrefused
  · exact congrArg Session.memos hrefused
  · intro heq
    cases hself.mp heq
  · rw [hleave (List.cons_ne_nil _ _)]
    rfl

/-- The settings are not what they were before the bracket was refused. -/
theorem refused_bracket_leaves_its_bound :
    let s : Session := { memos := [ofBound none], installed := some 0 }
    outcome (enter (some 0)) s = .error .boundTooSmall ∧
      s.settings.memoBound = none ∧
      (final (enter (some 0)) s).settings.memoBound = some 0 :=
  ⟨rfl, rfl, rfl⟩

end TreePath.Bracket
