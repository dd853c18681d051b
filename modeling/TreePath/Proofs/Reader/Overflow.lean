import TreePath.Proofs.Reader.Access

namespace TreePath.Overflow

open TreePath.Access
open TreePath.Decimal
open TreePath.Session (outcome)

/-- What is found at the path, or put in place of a `null` there, is a whole
number too large for the float that the expectation turns it into. -/
def Overflows (root : Value) (p : Path) (expected : Expected)
    (substitute : Value) : Prop :=
  ∃ v trail n, resolve root p = .ok (v, trail) ∧
    substituteNull substitute v = .int n ∧ floatLimit ≤ n.natAbs ∧
    expected.TurnsIntoFloat n

section Fetch

variable {root v : Value} {p : Path} {expected : Expected} {substitute : Value}

theorem overflows_of_coerce? {trail : List Visit} {e : TooLargeForFloat}
    (h : resolve root p = .ok (v, trail))
    (he : expected.coerce? (substituteNull substitute v) = .error e) :
    Overflows root p expected substitute := by
  obtain ⟨n, hn, hlarge, hfloat⟩ := Expected.coerce?_eq_error_iff.mp he
  exact ⟨v, trail, n, h, hn, hlarge, hfloat⟩

theorem fetch_of_overflows (h : Overflows root p expected substitute) :
    fetch root p expected substitute = .error .tooLarge := by
  obtain ⟨v, trail, n, hfound, hn, hlarge, hfloat⟩ := h
  have hv : v ≠ .missing := by
    rintro rfl
    cases hn
  have hcoerce : expected.coerce? (substituteNull substitute v) = .error ⟨⟩ :=
    Expected.coerce?_eq_error_iff.mpr ⟨n, hn, hlarge, hfloat⟩
  rw [fetch_of_present hfound hv, handOut, hcoerce]

theorem fetch_of_not_overflows (h : ¬Overflows root p expected substitute) :
    (∃ v, fetch root p expected substitute = .ok v) ∨
      ∃ f, fetch root p expected substitute = .error (.traversal f) := by
  rcases resolve_cases root p with ⟨f, hf⟩ | ⟨trail, hf⟩ | ⟨v, trail, hf, hv⟩
  · exact Or.inr ⟨f, fetch_of_error hf ..⟩
  · exact Or.inr ⟨_, fetch_of_missing hf ..⟩
  · rw [fetch_of_present hf hv, handOut]
    cases hcoerce : expected.coerce? (substituteNull substitute v) with
    | error e => exact absurd (overflows_of_coerce? hf hcoerce) h
    | ok w =>
        cases w with
        | some u => exact Or.inl ⟨u, rfl⟩
        | none => exact Or.inr ⟨_, rfl⟩

end Fetch

section Outcome

variable {r : Reader} {p : Path} {expected : Expected}

theorem outcome_valueAt_of_overflows {substitute : Value}
    (h : Overflows r.root p expected substitute) (s : Session) :
    outcome (r.valueAt (.path p) expected substitute) s =
      .error .tooLargeForFloat := by
  rw [outcome_valueAt, fetch_of_overflows h]
  rfl

theorem outcome_valueAt_of_not_overflows {substitute : Value}
    (h : ¬Overflows r.root p expected substitute) (s : Session) :
    (∃ v, outcome (r.valueAt (.path p) expected substitute) s = .ok v) ∨
      ∃ f, outcome (r.valueAt (.path p) expected substitute) s =
        .error (.traversal f) := by
  rw [outcome_valueAt]
  rcases fetch_of_not_overflows h with ⟨v, hv⟩ | ⟨f, hf⟩
  · exact Or.inl ⟨v, by rw [hv]; rfl⟩
  · exact Or.inr ⟨f, by rw [hf]; rfl⟩

theorem outcome_valueOrDefault_of_overflows
    (h : Overflows r.root p expected .missing) (default : Value) (s : Session) :
    outcome (r.valueOrDefault (.path p) default expected) s =
      .error .tooLargeForFloat := by
  rw [outcome_valueOrDefault, fetch_of_overflows h]

theorem outcome_valueOrDefault_of_not_overflows
    (h : ¬Overflows r.root p expected .missing) (default : Value) (s : Session) :
    ∃ v, outcome (r.valueOrDefault (.path p) default expected) s = .ok v := by
  rw [outcome_valueOrDefault]
  rcases fetch_of_not_overflows h with ⟨v, hv⟩ | ⟨f, hf⟩
  · exact ⟨v, by rw [hv]⟩
  · exact ⟨default, by rw [hf]⟩

theorem outcome_optionalValueAt_of_overflows
    (h : Overflows r.root p expected .missing) (nullIsAbsent : Bool)
    (s : Session) :
    outcome (r.optionalValueAt (.path p) expected nullIsAbsent) s =
      .error .tooLargeForFloat := by
  obtain ⟨v, trail, n, hfound, hn, hlarge, hfloat⟩ := h
  rw [substituteNull_missing] at hn
  subst hn
  rw [outcome_optionalValueAt, hfound]
  have hpresent : ¬((Value.int n).isMissing ||
      (nullIsAbsent && (Value.int n).isNull)) = true := by
    simp [Value.isMissing, Value.isNull]
  have hcoerce : expected.coerce? (.int n) = .error ⟨⟩ :=
    Expected.coerce?_eq_error_iff.mpr ⟨n, rfl, hlarge, hfloat⟩
  simp only [if_neg hpresent, hcoerce]

theorem outcome_optionalValueAt_of_not_overflows
    (h : ¬Overflows r.root p expected .missing) (nullIsAbsent : Bool)
    (s : Session) :
    ∃ v, outcome (r.optionalValueAt (.path p) expected nullIsAbsent) s = .ok v := by
  rw [outcome_optionalValueAt]
  cases hfound : resolve r.root p with
  | error f => exact ⟨.null, rfl⟩
  | ok found =>
      obtain ⟨v, trail⟩ := found
      dsimp only
      split
      · exact ⟨.null, rfl⟩
      · cases hcoerce : expected.coerce? v with
        | ok w => exact ⟨_, rfl⟩
        | error e =>
            rw [← substituteNull_missing v] at hcoerce
            exact absurd (overflows_of_coerce? hfound hcoerce) h

end Outcome

theorem readerAt_returns_or_faults (r : Reader) (p : Path) (s : Session) :
    (∃ t, outcome (r.readerAt (.path p)) s = .ok t) ∨
      ∃ f, outcome (r.readerAt (.path p)) s = .error (.traversal f) := by
  rcases resolve_cases r.root p with ⟨f, h⟩ | ⟨trail, h⟩ | ⟨v, trail, h, hv⟩
  · exact Or.inr ⟨f, outcome_readerAt_of_error h s⟩
  · exact Or.inr ⟨_, outcome_readerAt_of_missing h s⟩
  · exact Or.inl ⟨⟨v⟩, outcome_readerAt_of_present h hv s⟩

/-- A reader at a path is had or the traversal is at fault. The other accessors
fail in one more way, and exactly where a number overflows: elsewhere the value at
a path is had or the traversal is at fault, and the lenient accessors return. -/
theorem accessors_fail_besides_on_overflow_alone (r : Reader) (p : Path)
    (expected : Expected) (substitute default : Value) (nullIsAbsent : Bool)
    (s : Session) :
    ((∃ t, outcome (r.readerAt (.path p)) s = .ok t) ∨
      ∃ f, outcome (r.readerAt (.path p)) s = .error (.traversal f)) ∧
    ((¬Overflows r.root p expected substitute ∧
        ((∃ v, outcome (r.valueAt (.path p) expected substitute) s = .ok v) ∨
          ∃ f, outcome (r.valueAt (.path p) expected substitute) s =
            .error (.traversal f))) ∨
      (Overflows r.root p expected substitute ∧
        outcome (r.valueAt (.path p) expected substitute) s =
          .error .tooLargeForFloat)) ∧
    ((¬Overflows r.root p expected .missing ∧
        (∃ v, outcome (r.optionalValueAt (.path p) expected nullIsAbsent) s =
          .ok v) ∧
        ∃ v, outcome (r.valueOrDefault (.path p) default expected) s = .ok v) ∨
      (Overflows r.root p expected .missing ∧
        outcome (r.optionalValueAt (.path p) expected nullIsAbsent) s =
          .error .tooLargeForFloat ∧
        outcome (r.valueOrDefault (.path p) default expected) s =
          .error .tooLargeForFloat)) := by
  refine ⟨readerAt_returns_or_faults r p s, ?_, ?_⟩
  · by_cases h : Overflows r.root p expected substitute
    · exact Or.inr ⟨h, outcome_valueAt_of_overflows h s⟩
    · exact Or.inl ⟨h, outcome_valueAt_of_not_overflows h s⟩
  · by_cases h : Overflows r.root p expected .missing
    · exact Or.inr ⟨h, outcome_optionalValueAt_of_overflows h nullIsAbsent s,
        outcome_valueOrDefault_of_overflows h default s⟩
    · exact Or.inl ⟨h, outcome_optionalValueAt_of_not_overflows h nullIsAbsent s,
        outcome_valueOrDefault_of_not_overflows h default s⟩

/-- A whole number of 310 digits is no float, and no accessor that is to hand it
out as one returns or puts the traversal at fault. -/
theorem lenient_access_fails_on_310_digits :
    let n : Int := Int.ofNat (Nat.pow (Nat.pow 10 103) 3)
    let r : Reader := ⟨.map [("n", .int n)]⟩
    let p : Path := ⟨[.key "n"]⟩
    let float : Expected := .type .float
    outcome (r.valueAt (.path p) float .missing) {} = .error .tooLargeForFloat ∧
      outcome (r.optionalValueAt (.path p) float true) {} =
        .error .tooLargeForFloat ∧
      outcome (r.valueOrDefault (.path p) .null float) {} =
        .error .tooLargeForFloat := by
  intro n r p float
  have h : Overflows r.root p float .missing :=
    ⟨.int n, _, n, rfl, rfl, by decide +kernel, [], [], rfl, by simp⟩
  exact ⟨outcome_valueAt_of_overflows h {},
    outcome_optionalValueAt_of_overflows h true {},
    outcome_valueOrDefault_of_overflows h .null {}⟩

end TreePath.Overflow
