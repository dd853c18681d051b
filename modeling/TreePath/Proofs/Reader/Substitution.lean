import TreePath.Proofs.Reader.Access
import TreePath.Proofs.Walk.Replacement

namespace TreePath.Substitution

open TreePath.Access
open TreePath.Composition
open TreePath.Replacement
open TreePath.Result
open TreePath.Session (outcome)

/-- Both failures are about the value at the end of the path, and for the same
reason. They may show different trails to it. -/
inductive EndAlike (p : Path) (expected : Expected) : Failure → Failure → Prop where
  | wrongType (trail more : List Visit) (actual : Kind) :
      EndAlike p expected
        (.traversal ⟨p, trail, none, .wrongType (.value expected) actual⟩)
        (.traversal ⟨p, more, none, .wrongType (.value expected) actual⟩)
  | tooLarge : EndAlike p expected .tooLargeForFloat .tooLargeForFloat

variable {root substitute : Value} {p : Path} {trail : List Visit}

theorem handOut_alike (p : Path) (trail more : List Visit) (expected : Expected)
    (v : Value) :
    Agree (EndAlike p expected) Eq
      ((handOut p trail expected v).mapError Failure.ofFetchError)
      ((handOut p more expected v).mapError Failure.ofFetchError) :=
  have hagree : Agree (fun e e' => EndAlike p expected (.ofFetchError e) (.ofFetchError e'))
      Eq (handOut p trail expected v) (handOut p more expected v) :=
    handOut_agrees (.wrongType trail more v.kind) .tooLarge
  hagree.mapError fun _ _ halike => halike

theorem fetch_null (h : resolve root p = .ok (.null, trail))
    (hsubstitute : substitute ≠ .missing) (expected : Expected) :
    fetch root p expected substitute = handOut p trail expected substitute := by
  rw [fetch_of_present h nofun]
  cases substitute with
  | missing => exact absurd rfl hsubstitute
  | _ => rfl

theorem fetch_edited {edited : Value} (h : Replaced substitute p.steps root edited)
    (hsubstitute : substitute ≠ .missing) (expected : Expected) :
    ∃ more, fetch edited p expected .missing = handOut p more expected substitute := by
  obtain ⟨more, hmore⟩ := exists_walk_of_replaced h
  refine ⟨more, ?_⟩
  rw [fetch_of_present (resolve_eq_ok_iff.mpr hmore) hsubstitute, substituteNull_missing]

theorem substituteNull_of_ne_null {v : Value} (hv : v ≠ .null) :
    substituteNull substitute v = v := by
  cases v with
  | null => exact absurd rfl hv
  | _ => rfl

theorem fetch_of_not_null (h : ∀ trail, resolve root p ≠ .ok (.null, trail))
    (expected : Expected) :
    fetch root p expected substitute = fetch root p expected .missing := by
  rcases resolve_cases root p with ⟨f, hf⟩ | ⟨trail, hf⟩ | ⟨v, trail, hf, hv⟩
  · rw [fetch_of_error hf, fetch_of_error hf]
  · rw [fetch_of_missing hf, fetch_of_missing hf]
  · have hnull : v ≠ .null := by
      rintro rfl
      exact h trail hf
    rw [fetch_of_present hf hv, fetch_of_present hf hv, substituteNull_missing,
      substituteNull_of_ne_null hnull]

/-- Where a path leads to `null`, a substitute for it is handed out, converted or
refused as if the tree had the substitute in that place. Where the path leads to
anything else or nowhere, the substitute makes no difference. -/
theorem substituting_null_is_editing_the_tree (root : Value) (p : Path)
    (expected : Expected) (substitute : Value) (hsubstitute : substitute ≠ .missing)
    (s : Session) :
    (∀ trail, outcome (Session.resolve root p) s = .ok (.null, trail) →
      (∃ edited, Replaced substitute p.steps root edited) ∧
      ∀ edited, Replaced substitute p.steps root edited →
        Agree (EndAlike p expected) Eq
          (outcome (Session.fetch root p expected substitute) s)
          (outcome (Session.fetch edited p expected .missing) s)) ∧
    ((∀ trail, outcome (Session.resolve root p) s ≠ .ok (.null, trail)) →
      outcome (Session.fetch root p expected substitute) s =
        outcome (Session.fetch root p expected .missing) s) := by
  simp only [outcome_resolve, outcome_fetch, ne_eq, mapError_eq_ok_iff]
  refine ⟨?_, ?_⟩
  · intro trail h
    refine ⟨exists_replaced_of_walk substitute (resolve_eq_ok_iff.mp h), ?_⟩
    intro edited hedited
    obtain ⟨more, hmore⟩ := fetch_edited hedited hsubstitute expected
    rw [fetch_null h hsubstitute, hmore]
    exact handOut_alike ..
  · intro h
    rw [fetch_of_not_null h]

theorem substituting_null_is_editing_the_tree_in_tuple :
    let root : Value := .view [("a", .tuple [.null, .int 1])]
    let edited : Value := .view [("a", .tuple [.str "x", .int 1])]
    let p : Path := ⟨[.here, .key "a", .index ⟨-2, by decide, by decide⟩]⟩
    let one : Path := ⟨[.key "a", .index ⟨1, by decide, by decide⟩]⟩
    Value.str "x" ≠ .missing ∧
      (∃ trail, outcome (Session.resolve root p) {} = .ok (.null, trail)) ∧
      Replaced (.str "x") p.steps root edited ∧
      outcome (Session.fetch root p (.type .str) (.str "x")) {} = .ok (.str "x") ∧
      Agree (EndAlike p (.type .int)) Eq
        (outcome (Session.fetch root p (.type .int) (.str "x")) {})
        (outcome (Session.fetch edited p (.type .int) .missing) {}) ∧
      (∃ f, outcome (Session.fetch edited p (.type .int) .missing) {} =
        .error (.traversal f) ∧ f.cause = .wrongType (.value (.type .int)) .string) ∧
      (∀ trail, outcome (Session.resolve root one) {} ≠ .ok (.null, trail)) ∧
      outcome (Session.fetch root one (.type .int) (.str "x")) {} = .ok (.int 1) := by
  intro root edited p one
  have hsubstitute : Value.str "x" ≠ .missing := nofun
  obtain ⟨trail, htrail⟩ :
      ∃ trail, outcome (Session.resolve root p) {} = .ok (.null, trail) := ⟨_, rfl⟩
  have hedited : Replaced (.str "x") p.steps root edited :=
    .here (@Replaced.entry _ .view (Or.inr rfl) [] [] "a" _ _ _ nofun
      (@Replaced.item _ .tuple (Or.inr rfl) [] [.int 1] _ _ _ _ rfl (.nil .null)))
  have hone : ∀ trail, outcome (Session.resolve root one) {} ≠ .ok (.null, trail) :=
    nofun
  refine ⟨hsubstitute, ⟨trail, htrail⟩, hedited, ?_, ?_, ⟨_, rfl, rfl⟩, hone, ?_⟩
  · have hagree := ((substituting_null_is_editing_the_tree root p (.type .str) _
      hsubstitute {}).1 trail htrail).2 edited hedited
    exact (hagree.eq_ok_iff _).mpr rfl
  · exact ((substituting_null_is_editing_the_tree root p (.type .int) _
      hsubstitute {}).1 trail htrail).2 edited hedited
  · exact (substituting_null_is_editing_the_tree root one (.type .int) _
      hsubstitute {}).2 hone

end TreePath.Substitution
