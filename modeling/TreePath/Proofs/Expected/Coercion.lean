import TreePath.Expected

namespace TreePath.Expected

open TreePath.Decimal

/-- The first choice that takes the whole number is one that turns it into a
float: no choice before it admits the number. -/
def TurnsIntoFloat (e : Expected) (n : Int) : Prop :=
  ∃ before after, e.choices = before ++ type .float :: after ∧
    ∀ c ∈ before, c.admits (.int n) = false

theorem fit?_int_of_ne {c : Expected} (h : c ≠ type .float) (n : Int) :
    fit? (.int n) c = .ok (if c.admits (.int n) then some (.int n) else none) := by
  cases c with
  | type t =>
      cases t with
      | float => exact absurd rfl h
      | _ => rfl
  | oneOf es => rfl

theorem fit?_int_float (n : Int) :
    fit? (.int n) (type .float) =
      match floatOfInt? n with
      | some x => .ok (some (.float x))
      | none => .error ⟨⟩ :=
  rfl

theorem fit?_float_of_large {n : Int} (h : floatLimit ≤ n.natAbs) :
    fit? (.int n) (type .float) = .error ⟨⟩ := by
  have hnone : floatOfInt? n = none := by
    rw [floatOfInt?_eq_none_iff]
    exact h
  rw [fit?_int_float, hnone]

theorem fit?_eq_error_iff {v : Value} {c : Expected} {e : TooLargeForFloat} :
    fit? v c = .error e ↔
      c = type .float ∧ ∃ n, v = .int n ∧ floatLimit ≤ n.natAbs := by
  constructor
  · intro h
    cases v with
    | int n =>
        by_cases hc : c = type .float
        · subst hc
          refine ⟨rfl, n, rfl, ?_⟩
          rw [← floatOfInt?_eq_none_iff]
          cases hx : floatOfInt? n with
          | none => rfl
          | some x =>
              rw [fit?_int_float, hx] at h
              cases h
        · rw [fit?_int_of_ne hc] at h
          cases h
    | _ =>
        cases c with
        | type t => cases t <;> cases h
        | oneOf es => cases h
  · rintro ⟨rfl, n, rfl, h⟩
    exact fit?_float_of_large h

theorem admits_eq_false_of_fit? {c : Expected} {n : Int}
    (h : fit? (.int n) c = .ok none) : c.admits (.int n) = false := by
  by_cases hc : c = type .float
  · subst hc
    rfl
  · rw [fit?_int_of_ne hc] at h
    cases hadmits : c.admits (.int n) with
    | false => rfl
    | true =>
        rw [hadmits] at h
        cases h

theorem exists_of_fitFirst?_error {v : Value} {choices : List Expected}
    {e : TooLargeForFloat} (h : fitFirst? v choices = .error e) :
    ∃ before c after, choices = before ++ c :: after ∧
      (∀ b ∈ before, fit? v b = .ok none) ∧ fit? v c = .error e := by
  induction choices with
  | nil => cases h
  | cons c rest ih =>
      rw [fitFirst?] at h
      cases hc : fit? v c with
      | error e' =>
          rw [hc] at h
          cases h
          exact ⟨[], c, rest, rfl, by simp, hc⟩
      | ok r =>
          rw [hc] at h
          cases r with
          | some w => cases h
          | none =>
              obtain ⟨before, d, after, rfl, hbefore, hd⟩ := ih h
              refine ⟨c :: before, d, after, rfl, ?_, hd⟩
              intro b hb
              rcases List.mem_cons.mp hb with rfl | hb
              · exact hc
              · exact hbefore b hb

theorem fitFirst?_of_large {n : Int} (h : floatLimit ≤ n.natAbs)
    {before : List Expected} (hbefore : ∀ c ∈ before, c.admits (.int n) = false)
    (after : List Expected) :
    fitFirst? (.int n) (before ++ type .float :: after) = .error ⟨⟩ := by
  induction before with
  | nil => rw [List.nil_append, fitFirst?, fit?_float_of_large h]
  | cons c before ih =>
      rw [List.cons_append, fitFirst?]
      by_cases hc : c = type .float
      · rw [hc, fit?_float_of_large h]
      · rw [fit?_int_of_ne hc, hbefore c List.mem_cons_self]
        exact ih fun c' hc' => hbefore c' (List.mem_cons_of_mem _ hc')

theorem coerce?_eq_error_iff {expected : Expected} {v : Value}
    {e : TooLargeForFloat} :
    expected.coerce? v = .error e ↔
      ∃ n, v = .int n ∧ floatLimit ≤ n.natAbs ∧ expected.TurnsIntoFloat n := by
  constructor
  · intro h
    obtain ⟨before, c, after, hchoices, hbefore, hc⟩ := exists_of_fitFirst?_error h
    obtain ⟨rfl, n, rfl, hlarge⟩ := fit?_eq_error_iff.mp hc
    exact ⟨n, rfl, hlarge, before, after, hchoices,
      fun b hb => admits_eq_false_of_fit? (hbefore b hb)⟩
  · rintro ⟨n, rfl, hlarge, before, after, hchoices, hbefore⟩
    rw [coerce?, hchoices]
    exact fitFirst?_of_large hlarge hbefore after

theorem coerce?_anything (v : Value) : anything.coerce? v = .ok (some v) :=
  rfl

theorem eq_of_kept {v w : Value} {kept : Bool}
    (h : (.ok (if kept then some v else none) : Except TooLargeForFloat _) = .ok (some w)) :
    w = v := by
  cases kept with
  | false => cases h
  | true =>
      cases h
      rfl

theorem eq_of_fit? {v w : Value} {c : Expected} (hv : ∀ n, v ≠ .int n)
    (h : fit? v c = .ok (some w)) : w = v := by
  cases v with
  | int n => exact absurd rfl (hv n)
  | _ =>
      cases c with
      | type t =>
          cases t with
          | other c => exact eq_of_kept h
          | _ => cases h <;> rfl
      | oneOf es => exact eq_of_kept h

theorem exists_fit?_of_fitFirst? {v w : Value} {choices : List Expected}
    (h : fitFirst? v choices = .ok (some w)) : ∃ c ∈ choices, fit? v c = .ok (some w) := by
  induction choices with
  | nil => cases h
  | cons c rest ih =>
      rw [fitFirst?] at h
      cases hc : fit? v c with
      | error e =>
          rw [hc] at h
          cases h
      | ok found =>
          rw [hc] at h
          cases found with
          | some u =>
              cases h
              exact ⟨c, List.mem_cons_self, hc⟩
          | none =>
              obtain ⟨d, hd, hfit⟩ := ih h
              exact ⟨d, List.mem_cons_of_mem _ hd, hfit⟩

theorem eq_of_coerce? {expected : Expected} {v w : Value} (hv : ∀ n, v ≠ .int n)
    (h : expected.coerce? v = .ok (some w)) : w = v := by
  obtain ⟨c, -, hc⟩ := exists_fit?_of_fitFirst? h
  exact eq_of_fit? hv hc

theorem fit?_int_cases {n : Int} {w : Value} {c : Expected}
    (h : fit? (.int n) c = .ok (some w)) : w = .int n ∨ ∃ x, w = .float x := by
  by_cases hc : c = type .float
  · subst hc
    rw [fit?_int_float] at h
    split at h <;> cases h
    exact Or.inr ⟨_, rfl⟩
  · rw [fit?_int_of_ne hc] at h
    split at h <;> cases h
    exact Or.inl rfl

theorem ne_missing_of_coerce? {expected : Expected} {v w : Value} (hv : v ≠ .missing)
    (h : expected.coerce? v = .ok (some w)) : w ≠ .missing := by
  by_cases hint : ∃ n, v = .int n
  · obtain ⟨n, rfl⟩ := hint
    obtain ⟨c, -, hc⟩ := exists_fit?_of_fitFirst? h
    rcases fit?_int_cases hc with rfl | ⟨x, rfl⟩
    · exact nofun
    · exact nofun
  · rw [eq_of_coerce? (not_exists.mp hint) h]
    exact hv

end TreePath.Expected
