import TreePath.Proofs.Reader.Access

namespace TreePath.Root

open TreePath.Access
open TreePath.Composition
open TreePath.Result
open TreePath.Session (outcome)

/-- The path that stays at the root for so many steps. -/
def selfPath (n : Nat) : Path :=
  ⟨List.replicate n .here⟩

/-- What is said of a root and what is said of the end of a path. -/
inductive Corresponds : Failure → Failure → Prop where
  | missing {f : TraversalFault} (h : f.cause = .missingValue) :
      Corresponds .rootMissing (.traversal f)
  | wrongType {wanted : Wanted} {actual : Kind} {f : TraversalFault}
      (h : f.cause = .wrongType wanted actual) :
      Corresponds (.rootType wanted actual) (.traversal f)
  | tooLarge : Corresponds .tooLargeForFloat .tooLargeForFloat

/-- The failures that are told in words of their own on the one side or on the other. -/
def Told : Failure → Prop
  | .rootMissing => True
  | .rootType _ _ => True
  | .traversal _ => True
  | _ => False

section Agreement

variable {r : Reader}

theorem resolve_selfPath (v : Value) (n : Nat) :
    ∃ trail, resolve v (selfPath n) = .ok (v, trail) :=
  ⟨_, resolve_eq_ok_iff.mpr (walk_of_forall_here (fun _ => List.eq_of_mem_replicate) v)⟩

theorem value_of_missing (h : r.root = .missing) (expected : Expected) :
    r.value expected = .error .rootMissing := by
  rw [Reader.value, Reader.isEmpty, h]
  rfl

theorem value_agrees_with_handOut (h : r.root ≠ .missing) (p : Path)
    (trail : List Visit) (expected : Expected) :
    Agree Corresponds Eq (r.value expected)
      ((handOut p trail expected r.root).mapError Failure.ofFetchError) := by
  have hpresent : ¬r.isEmpty = true := mt Value.isMissing_eq_true_iff.mp h
  rw [Reader.value, if_neg hpresent, handOut]
  cases expected.coerce? r.root with
  | error e => exact .error .tooLarge
  | ok w =>
      cases w with
      | some v => exact .ok rfl
      | none => exact .error (.wrongType rfl)

theorem value_agrees_with_valueAt (r : Reader) (expected : Expected) (n : Nat)
    (s : Session) :
    Agree Corresponds Eq (r.value expected)
      (outcome (r.valueAt (.path (selfPath n)) expected .missing) s) := by
  obtain ⟨trail, htrail⟩ := resolve_selfPath r.root n
  rw [outcome_valueAt]
  by_cases hroot : r.root = .missing
  · rw [hroot] at htrail
    rw [value_of_missing hroot, hroot, fetch_of_missing htrail]
    exact .error (.missing rfl)
  · rw [fetch_of_present htrail hroot, substituteNull_missing]
    exact value_agrees_with_handOut hroot ..

end Agreement

section Failures

variable {x y : Except Failure Value}

theorem rootMissing_iff_of_agree (h : Agree Corresponds Eq x y) :
    x = .error .rootMissing ↔
      ∃ f, y = .error (.traversal f) ∧ f.cause = .missingValue := by
  cases h with
  | ok _ => exact iff_of_false nofun (by rintro ⟨f, ⟨⟩, -⟩)
  | error hfailures =>
      cases hfailures with
      | missing hcause => exact iff_of_true rfl ⟨_, rfl, hcause⟩
      | tooLarge => exact iff_of_false nofun (by rintro ⟨f, ⟨⟩, -⟩)
      | wrongType hcause =>
          refine iff_of_false nofun ?_
          rintro ⟨f, ⟨⟩, hmissing⟩
          cases hcause.symm.trans hmissing

theorem rootType_iff_of_agree (h : Agree Corresponds Eq x y) (wanted : Wanted)
    (actual : Kind) :
    x = .error (.rootType wanted actual) ↔
      ∃ f, y = .error (.traversal f) ∧ f.cause = .wrongType wanted actual := by
  cases h with
  | ok _ => exact iff_of_false nofun (by rintro ⟨f, ⟨⟩, -⟩)
  | error hfailures =>
      cases hfailures with
      | tooLarge => exact iff_of_false nofun (by rintro ⟨f, ⟨⟩, -⟩)
      | missing hcause =>
          refine iff_of_false nofun ?_
          rintro ⟨f, ⟨⟩, htype⟩
          cases hcause.symm.trans htype
      | wrongType hcause =>
          constructor
          · rintro ⟨⟩
            exact ⟨_, rfl, hcause⟩
          · rintro ⟨f, ⟨⟩, htype⟩
            cases hcause.symm.trans htype
            rfl

theorem error_iff_of_agree (h : Agree Corresponds Eq x y) {e : Failure}
    (he : ¬Told e) : x = .error e ↔ y = .error e := by
  cases h with
  | ok _ => exact iff_of_false nofun nofun
  | error hfailures =>
      cases hfailures with
      | tooLarge => exact Iff.rfl
      | missing _ =>
          refine iff_of_false ?_ ?_
          · rintro ⟨⟩
            exact he trivial
          · rintro ⟨⟩
            exact he trivial
      | wrongType _ =>
          refine iff_of_false ?_ ?_
          · rintro ⟨⟩
            exact he trivial
          · rintro ⟨⟩
            exact he trivial

end Failures

/-- The root by itself and the root at a path that stays there are handed out alike: missing
together, of the wrong type together and with the same words, and every other failure is the
same. -/
theorem root_is_the_value_at_self_references (r : Reader) (expected : Expected)
    (n : Nat) (s : Session) :
    let byItself := r.value expected
    let atPath := outcome (r.valueAt (.path (selfPath n)) expected .missing) s
    (∀ v, byItself = .ok v ↔ atPath = .ok v) ∧
    (byItself = .error .rootMissing ↔
      ∃ f, atPath = .error (.traversal f) ∧ f.cause = .missingValue) ∧
    (∀ wanted actual, byItself = .error (.rootType wanted actual) ↔
      ∃ f, atPath = .error (.traversal f) ∧ f.cause = .wrongType wanted actual) ∧
    ∀ e, ¬Told e → (byItself = .error e ↔ atPath = .error e) := by
  intro byItself atPath
  have hagree : Agree Corresponds Eq byItself atPath :=
    value_agrees_with_valueAt r expected n s
  exact ⟨hagree.eq_ok_iff, rootMissing_iff_of_agree hagree,
    rootType_iff_of_agree hagree, fun _ he => error_iff_of_agree hagree he⟩

theorem root_is_the_value_at_self_references_past_float_range :
    let n : Int := Int.ofNat (Nat.pow (Nat.pow 10 103) 3)
    let truth : Reader := ⟨.bool true⟩
    let p : Path := ⟨[.here, .here]⟩
    ¬Told .tooLargeForFloat ∧
      (Reader.mk (.int n)).value (.type .float) = .error .tooLargeForFloat ∧
      outcome ((Reader.mk (.int n)).valueAt (.path p) (.type .float) .missing) {} =
        .error .tooLargeForFloat ∧
      outcome (truth.valueAt (.path p) (.oneOf [.type .str, .type .bool]) .missing) {} =
        .ok (.bool true) ∧
      (∃ f, outcome (truth.valueAt (.path p) (.type .int) .missing) {} =
        .error (.traversal f) ∧ f.cause = .wrongType (.value (.type .int)) .boolean) ∧
      ∃ f, outcome (Reader.empty.valueAt (.path p) .anything .missing) {} =
        .error (.traversal f) ∧ f.cause = .missingValue := by
  intro n truth p
  have htold : ¬Told .tooLargeForFloat := id
  have hcoerce : (Expected.type .float).coerce? (.int n) = .error ⟨⟩ :=
    Expected.coerce?_eq_error_iff.mpr ⟨n, rfl, by decide +kernel, [], [], rfl, by simp⟩
  have hlarge : (Reader.mk (.int n)).value (.type .float) = .error .tooLargeForFloat := by
    rw [Reader.value, hcoerce]
    rfl
  refine ⟨htold, hlarge, ?_, ?_, ?_, ?_⟩
  · exact ((root_is_the_value_at_self_references ⟨.int n⟩ (.type .float) 2 {}).2.2.2 _
      htold).mp hlarge
  · exact ((root_is_the_value_at_self_references truth _ 2 {}).1 _).mp rfl
  · exact ((root_is_the_value_at_self_references truth (.type .int) 2 {}).2.2.1 _ _).mp
      rfl
  · exact (root_is_the_value_at_self_references .empty .anything 2 {}).2.1.mp rfl

end TreePath.Root
