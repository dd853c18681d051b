import TreePath.Proofs.Reader.Access
import TreePath.Proofs.Session.Transparency

namespace TreePath.Lenient

open TreePath.Access
open TreePath.Session (outcome final asPath)

theorem coerce?_null (expected : Expected) :
    ∃ found, expected.coerce? .null = .ok found ∧ found.getD .null = .null := by
  cases h : expected.coerce? .null with
  | error e =>
      obtain ⟨n, ⟨⟩, -⟩ := Expected.coerce?_eq_error_iff.mp h
  | ok found =>
      refine ⟨found, rfl, ?_⟩
      cases found with
      | none => rfl
      | some w => exact Expected.eq_of_coerce? nofun h

section Path

variable (r : Reader) (p : Path) (expected : Expected) (s : Session)

/-- A `null` that is not as expected is handed out all the same, so it makes no
difference whether it counts as lacking. -/
theorem optionalValueAt_path (nullIsAbsent : Bool) :
    outcome (r.optionalValueAt (.path p) expected nullIsAbsent) s =
      outcome (r.valueOrDefault (.path p) .null expected) s := by
  rw [outcome_optionalValueAt, outcome_valueOrDefault]
  rcases resolve_cases r.root p with ⟨f, h⟩ | ⟨trail, h⟩ | ⟨v, trail, h, hv⟩
  · rw [fetch_of_error h, h]
  · rw [fetch_of_missing h, h]
    rfl
  · rw [fetch_of_present h hv, h, substituteNull_missing, handOut]
    dsimp only
    split
    · rename_i habsent
      rw [Bool.or_eq_true, Bool.and_eq_true] at habsent
      have hnull : v = .null := by
        rcases habsent with hmissing | ⟨-, hnull⟩
        · exact absurd (Value.isMissing_eq_true_iff.mp hmissing) hv
        · exact Value.isNull_eq_true_iff.mp hnull
      subst hnull
      obtain ⟨found, hfound, hget⟩ := coerce?_null expected
      rw [hfound]
      cases found with
      | none => rfl
      | some w => exact congrArg Except.ok hget.symm
    · cases expected.coerce? v with
      | error e => rfl
      | ok found => cases found <;> rfl

end Path

section Argument

variable {path : PathArgument} {s : Session}

theorem parseThrough_ne_traversal (number : Nat) (text : String) (f : TraversalFault) :
    outcome (Session.parseThrough number text) s ≠ .error (.traversal f) := by
  unfold Session.parseThrough
  simp only [Session.outcome_bind, Session.outcome_get, Session.final_get]
  rcases (s.memoAt number).request parseSteps text with ⟨answer, memo⟩
  cases answer with
  | held steps => exact nofun
  | fresh steps => exact nofun
  | unkept steps => exact nofun
  | failed e => cases e <;> exact nofun

theorem parse_ne_traversal (text : String) (f : TraversalFault) :
    outcome (Session.parse text) s ≠ .error (.traversal f) := by
  intro h
  rw [Session.parse, Session.outcome_bind] at h
  cases hnumber : outcome Session.defaultMemo s with
  | error e =>
      rw [hnumber] at h
      cases h
      rcases Session.defaultMemo_cases s with
        ⟨number, -, houtcome, -⟩ | ⟨-, ⟨-, houtcome, -⟩ | ⟨houtcome, -⟩⟩
      all_goals
        rw [houtcome] at hnumber
        cases hnumber
  | ok number =>
      rw [hnumber] at h
      dsimp only at h
      rw [Session.outcome_bind] at h
      cases hsteps : outcome (Session.parseThrough number text)
          (final Session.defaultMemo s) with
      | ok steps =>
          rw [hsteps] at h
          cases h
      | error e =>
          rw [hsteps] at h
          cases h
          exact parseThrough_ne_traversal number text f hsteps

theorem asPath_ne_traversal (f : TraversalFault) :
    outcome (asPath path) s ≠ .error (.traversal f) := by
  cases path with
  | path p => exact nofun
  | value v =>
      cases v with
      | str text => exact parse_ne_traversal text f
      | _ => exact nofun

variable (r : Reader) (expected : Expected)

theorem outcome_optionalValueAt_argument (nullIsAbsent : Bool) :
    outcome (r.optionalValueAt path expected nullIsAbsent) s =
      match outcome (asPath path) s with
      | .ok p =>
        outcome (r.optionalValueAt (.path p) expected nullIsAbsent)
          (final (asPath path) s)
      | .error e => .error e := by
  rw [Reader.optionalValueAt, Session.outcome_bind]
  cases outcome (asPath path) s with
  | ok p => rfl
  | error e => rfl

theorem outcome_valueOrDefault_argument (default : Value) :
    outcome (r.valueOrDefault path default expected) s =
      match outcome (asPath path) s with
      | .ok p =>
        outcome (r.valueOrDefault (.path p) default expected) (final (asPath path) s)
      | .error e => .error e := by
  rw [Reader.valueOrDefault, Session.outcome_tryCatch, outcome_valueAt_argument]
  cases h : outcome (asPath path) s with
  | ok p =>
      dsimp only
      rw [Reader.valueOrDefault, Session.outcome_tryCatch]
      cases outcome (r.valueAt (.path p) expected .missing) (final (asPath path) s) with
      | ok v => rfl
      | error e => cases e <;> rfl
  | error e =>
      cases e with
      | traversal f => exact absurd h (asPath_ne_traversal f)
      | _ => rfl

end Argument

/-- A value that may be lacking, with a `null` counted as lacking or not, and a value that
falls back on `null` are the same in any two sessions. A path text that cannot be read fails
in all of them, and what the value at a path is, that they are. -/
theorem lenient_accessors_coincide (r : Reader) (path : PathArgument)
    (expected : Expected) (nullIsAbsent : Bool) :
    (∀ s, outcome (r.optionalValueAt path expected nullIsAbsent) s =
      outcome (r.valueOrDefault path .null expected) s) ∧
    (∀ s t : Session, s.Ready → t.Ready →
      outcome (r.optionalValueAt path expected nullIsAbsent) s =
        outcome (r.valueOrDefault path .null expected) t) ∧
    (∀ s e, outcome (asPath path) s = .error e →
      outcome (r.optionalValueAt path expected nullIsAbsent) s = .error e) ∧
    (∀ (s : Session) (text : String) (f : PathFault), s.Ready →
      path = .value (.str text) → parseSteps text = .error (.flawed f) →
        outcome (r.optionalValueAt path expected nullIsAbsent) s =
          .error (.path f)) ∧
    ∀ s v, outcome (r.valueAt path expected .missing) s = .ok v →
      outcome (r.optionalValueAt path expected nullIsAbsent) s = .ok v := by
  have hsame : ∀ s, outcome (r.optionalValueAt path expected nullIsAbsent) s =
      outcome (r.valueOrDefault path .null expected) s := by
    intro s
    rw [outcome_optionalValueAt_argument, outcome_valueOrDefault_argument]
    cases outcome (asPath path) s with
    | error e => rfl
    | ok p => exact optionalValueAt_path r p expected _ nullIsAbsent
  have hfails : ∀ s e, outcome (asPath path) s = .error e →
      outcome (r.optionalValueAt path expected nullIsAbsent) s = .error e := by
    intro s e he
    rw [outcome_optionalValueAt_argument, he]
  refine ⟨hsame, ?_, hfails, ?_, ?_⟩
  · intro s t hs ht
    rw [hsame s]
    exact (Session.steady_valueOrDefault r path .null expected).same s t hs ht
  · rintro s text f hs rfl hf
    apply hfails s
    change outcome (Session.parse text) s = _
    rw [Session.outcome_parse hs, Session.readPath, hf]
    rfl
  · intro s v hv
    rw [hsame s, Reader.valueOrDefault, Session.outcome_tryCatch, hv]

theorem lenient_accessors_coincide_on_null_and_flaw :
    let r : Reader := ⟨.map [("a", .null)]⟩
    let whole : Expected := .type .int
    let fault : PathFault := ⟨"a[", 1, .openSubscript⟩
    let m : PathMemo := (Memo.ofBound (some 1)).after parseSteps [.request "b"]
    let t : Session := { memos := [m], installed := some 0 }
    Session.Ready {} ∧ t.Ready ∧
      outcome (r.optionalValueAt (.value (.str "a")) whole false) {} =
        outcome (r.valueOrDefault (.value (.str "a")) .null whole) t ∧
      outcome (r.valueAt (.path ⟨[.key "a"]⟩) (.type .null) .missing) {} = .ok .null ∧
      outcome (r.optionalValueAt (.path ⟨[.key "a"]⟩) (.type .null) false) {} =
        .ok .null ∧
      parseSteps "a[" = .error (.flawed fault) ∧
      outcome (r.optionalValueAt (.value (.str "a[")) whole true) {} =
        .error (.path fault) ∧
      outcome (asPath (.value .null)) {} = .error (.misuse (.notPathText "NoneType")) ∧
      outcome (r.optionalValueAt (.value .null) whole true) {} =
        .error (.misuse (.notPathText "NoneType")) := by
  intro r whole fault m t
  have ht : t.Ready := (Session.ready_of_installed rfl).mpr
    ⟨some 1, Memo.ofBound (some 1), [.request "b"], rfl, by simp [Memo.Call.Legal], rfl⟩
  have hflaw : parseSteps "a[" = .error (.flawed fault) := by decide +kernel
  obtain ⟨-, hready, -, -, -⟩ :=
    lenient_accessors_coincide r (.value (.str "a")) whole false
  obtain ⟨-, -, -, -, hvalue⟩ :=
    lenient_accessors_coincide r (.path ⟨[.key "a"]⟩) (.type .null) false
  obtain ⟨-, -, -, htext, -⟩ :=
    lenient_accessors_coincide r (.value (.str "a[")) whole true
  obtain ⟨-, -, hfails, -, -⟩ := lenient_accessors_coincide r (.value .null) whole true
  exact ⟨Session.ready_new, ht, hready {} t Session.ready_new ht, rfl, hvalue {} _ rfl,
    hflaw, htext {} "a[" fault Session.ready_new rfl hflaw, rfl, hfails {} _ rfl⟩

end TreePath.Lenient
