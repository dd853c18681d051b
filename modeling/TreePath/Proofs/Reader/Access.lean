import TreePath.Proofs.Expected.Coercion
import TreePath.Proofs.Walk.Composition
import TreePath.Reader

namespace TreePath.Access

open TreePath.Composition
open TreePath.Result
open TreePath.Session (outcome final asPath)

section Fetch

variable {root v : Value} {p : Path} {trail : List Visit}

theorem handOut_anything (p : Path) (trail : List Visit) (v : Value) :
    handOut p trail .anything v = .ok v := by
  rw [handOut, Expected.coerce?_anything]

theorem substituteNull_missing (v : Value) : substituteNull .missing v = v := by
  simp [substituteNull, Value.isMissing]

theorem substituteNull_ne_missing {substitute : Value} (hv : v ≠ .missing) :
    substituteNull substitute v ≠ .missing := by
  rw [substituteNull]
  split
  · rename_i h
    rw [Bool.and_eq_true, Bool.not_eq_true'] at h
    rintro rfl
    cases h.2
  · exact hv

theorem fetch_of_error {f : TraversalFault} (h : resolve root p = .error f)
    (expected : Expected) (substitute : Value) :
    fetch root p expected substitute = .error (.traversal f) := by
  rw [fetch, h]

theorem fetch_of_missing (h : resolve root p = .ok (.missing, trail))
    (expected : Expected) (substitute : Value) :
    fetch root p expected substitute = .error (.traversal (.ofMissing p)) := by
  rw [fetch, h]
  rfl

theorem fetch_of_present (h : resolve root p = .ok (v, trail)) (hv : v ≠ .missing)
    (expected : Expected) (substitute : Value) :
    fetch root p expected substitute =
      handOut p trail expected (substituteNull substitute v) := by
  have hpresent : ¬v.isMissing = true := mt Value.isMissing_eq_true_iff.mp hv
  rw [fetch, h]
  exact if_neg hpresent

theorem resolve_cases (root : Value) (p : Path) :
    (∃ f, resolve root p = .error f) ∨
      (∃ trail, resolve root p = .ok (.missing, trail)) ∨
      ∃ v trail, resolve root p = .ok (v, trail) ∧ v ≠ .missing := by
  cases h : resolve root p with
  | error f => exact Or.inl ⟨f, rfl⟩
  | ok r =>
      obtain ⟨v, trail⟩ := r
      by_cases hv : v = .missing
      · subst hv
        exact Or.inr (Or.inl ⟨trail, rfl⟩)
      · exact Or.inr (Or.inr ⟨v, trail, rfl, hv⟩)

theorem handOut_eq_ok_iff {expected : Expected} {w : Value} :
    handOut p trail expected v = .ok w ↔ expected.coerce? v = .ok (some w) := by
  rw [handOut]
  cases expected.coerce? v with
  | error e => simp
  | ok found => cases found <;> simp

theorem handOut_agrees {S : FetchError → FetchError → Prop} {q : Path}
    {more : List Visit} {expected : Expected}
    (htype : S (.traversal ⟨p, trail, none, .wrongType (.value expected) v.kind⟩)
      (.traversal ⟨q, more, none, .wrongType (.value expected) v.kind⟩))
    (hlarge : S .tooLarge .tooLarge) :
    Agree S Eq (handOut p trail expected v) (handOut q more expected v) := by
  rw [handOut, handOut]
  cases expected.coerce? v with
  | error e => exact .error hlarge
  | ok w =>
      cases w with
      | some u => exact .ok rfl
      | none => exact .error htype

theorem exists_present_of_fetch {expected : Expected} {substitute w : Value}
    (h : fetch root p expected substitute = .ok w) :
    ∃ v trail, resolve root p = .ok (v, trail) ∧ v ≠ .missing ∧
      expected.coerce? (substituteNull substitute v) = .ok (some w) := by
  rcases resolve_cases root p with ⟨f, hf⟩ | ⟨trail, hf⟩ | ⟨v, trail, hf, hv⟩
  · rw [fetch_of_error hf] at h
    cases h
  · rw [fetch_of_missing hf] at h
    cases h
  · rw [fetch_of_present hf hv] at h
    exact ⟨v, trail, hf, hv, handOut_eq_ok_iff.mp h⟩

end Fetch

section Outcome

variable (r : Reader) (p : Path) (expected : Expected) (s : Session)

theorem outcome_fetch (root substitute : Value) :
    outcome (Session.fetch root p expected substitute) s =
      (fetch root p expected substitute).mapError Failure.ofFetchError := by
  rw [Session.fetch]
  cases fetch root p expected substitute with
  | ok v => rfl
  | error e =>
      cases e with
      | traversal f => rfl
      | tooLarge => rfl

theorem outcome_valueAt (substitute : Value) :
    outcome (r.valueAt (.path p) expected substitute) s =
      (fetch r.root p expected substitute).mapError Failure.ofFetchError :=
  outcome_fetch p expected s r.root substitute

theorem outcome_readerAt :
    outcome (r.readerAt (.path p)) s =
      match resolve r.root p with
      | .error f => .error (.traversal f)
      | .ok (v, _) =>
        if v.isMissing then .error (.traversal (.ofMissing p)) else .ok ⟨v⟩ := by
  rw [Reader.readerAt, Session.outcome_bind, outcome_valueAt, fetch]
  cases resolve r.root p with
  | error f => rfl
  | ok found =>
      obtain ⟨v, trail⟩ := found
      dsimp only
      rw [substituteNull_missing, handOut_anything]
      cases v.isMissing with
      | true => rfl
      | false => rfl

theorem outcome_valueOrDefault (default : Value) :
    outcome (r.valueOrDefault (.path p) default expected) s =
      match fetch r.root p expected .missing with
      | .ok v => .ok v
      | .error (.traversal _) => .ok default
      | .error .tooLarge => .error .tooLargeForFloat := by
  rw [Reader.valueOrDefault, Session.outcome_tryCatch, outcome_valueAt]
  cases fetch r.root p expected .missing with
  | ok v => rfl
  | error e =>
      cases e with
      | traversal f => rfl
      | tooLarge => rfl

theorem outcome_optionalValueAt (nullIsAbsent : Bool) :
    outcome (r.optionalValueAt (.path p) expected nullIsAbsent) s =
      match resolve r.root p with
      | .error _ => .ok .null
      | .ok (v, _) =>
        if v.isMissing || (nullIsAbsent && v.isNull) then .ok .null
        else
          match expected.coerce? v with
          | .ok w => .ok (w.getD .null)
          | .error _ => .error .tooLargeForFloat := by
  change outcome (Session.fetchOptional r.root p expected nullIsAbsent) s = _
  rw [Session.fetchOptional]
  cases resolve r.root p with
  | error f => rfl
  | ok found =>
      obtain ⟨v, trail⟩ := found
      dsimp only
      split
      · rfl
      · cases expected.coerce? v with
        | ok w => rfl
        | error e => rfl

theorem outcome_readerAt_of_present {r : Reader} {p : Path} {v : Value}
    {trail : List Visit} (h : resolve r.root p = .ok (v, trail)) (hv : v ≠ .missing)
    (s : Session) : outcome (r.readerAt (.path p)) s = .ok ⟨v⟩ := by
  have hpresent : ¬v.isMissing = true := mt Value.isMissing_eq_true_iff.mp hv
  rw [outcome_readerAt, h]
  exact if_neg hpresent

theorem outcome_readerAt_of_missing {r : Reader} {p : Path} {trail : List Visit}
    (h : resolve r.root p = .ok (.missing, trail)) (s : Session) :
    outcome (r.readerAt (.path p)) s = .error (.traversal (.ofMissing p)) := by
  rw [outcome_readerAt, h]
  rfl

theorem outcome_readerAt_of_error {r : Reader} {p : Path} {f : TraversalFault}
    (h : resolve r.root p = .error f) (s : Session) :
    outcome (r.readerAt (.path p)) s = .error (.traversal f) := by
  rw [outcome_readerAt, h]

end Outcome

section Argument

variable {r : Reader} {path : PathArgument} {s : Session}

theorem outcome_valueAt_argument (expected : Expected) (substitute : Value) :
    outcome (r.valueAt path expected substitute) s =
      match outcome (asPath path) s with
      | .ok p =>
        outcome (r.valueAt (.path p) expected substitute) (final (asPath path) s)
      | .error e => .error e := by
  rw [Reader.valueAt, Session.outcome_bind]
  cases outcome (asPath path) s with
  | ok p => rfl
  | error e => rfl

theorem exists_fetch_of_valueAt {expected : Expected} {substitute v : Value}
    (h : outcome (r.valueAt path expected substitute) s = .ok v) :
    ∃ p, fetch r.root p expected substitute = .ok v := by
  rw [outcome_valueAt_argument] at h
  cases hpath : outcome (asPath path) s with
  | error e =>
      rw [hpath] at h
      cases h
  | ok p =>
      simp only [hpath, outcome_valueAt] at h
      exact ⟨p, mapError_eq_ok_iff.mp h⟩

theorem exists_fetch_of_readerAt {t : Reader}
    (h : outcome (r.readerAt path) s = .ok t) :
    ∃ p, fetch r.root p .anything .missing = .ok t.root := by
  rw [Reader.readerAt, Session.outcome_bind] at h
  cases hvalue : outcome (r.valueAt path .anything .missing) s with
  | error e =>
      rw [hvalue] at h
      cases h
  | ok v =>
      rw [hvalue] at h
      cases h
      exact exists_fetch_of_valueAt hvalue

end Argument

end TreePath.Access
