import TreePath.Proofs.Value.Equality
import TreePath.Proofs.Walk.Composition

namespace TreePath.Presence

open TreePath.Composition

/-- The absent value stands at the top or somewhere below. -/
inductive HasGap : Value → Prop where
  | absent : HasGap .missing
  | item {v w : Value} {items : List Value} (hv : v.items? = some items)
      (hw : w ∈ items) (h : HasGap w) : HasGap v
  | entry {v w : Value} {key : String} {entries : List (String × Value)}
      (hv : v.entries? = some entries) (hw : (key, w) ∈ entries) (h : HasGap w) :
      HasGap v

def Whole (v : Value) : Prop :=
  ¬HasGap v

section Parts

variable {v w : Value}

theorem Whole.ne_missing (h : Whole v) : v ≠ .missing := by
  rintro rfl
  exact h .absent

theorem whole_of_item {items : List Value} (h : Whole v) (hv : v.items? = some items)
    (hw : w ∈ items) : Whole w :=
  fun hgap => h (.item hv hw hgap)

theorem whole_of_entry {key : String} {entries : List (String × Value)} (h : Whole v)
    (hv : v.entries? = some entries) (hw : (key, w) ∈ entries) : Whole w :=
  fun hgap => h (.entry hv hw hgap)

theorem whole_iff : Whole v ↔ v ≠ .missing ∧
    (∀ items, v.items? = some items → ∀ w ∈ items, Whole w) ∧
    ∀ entries, v.entries? = some entries → ∀ key w, (key, w) ∈ entries → Whole w := by
  constructor
  · intro h
    exact ⟨h.ne_missing, fun _ hv _ hw => whole_of_item h hv hw,
      fun _ hv _ _ hw => whole_of_entry h hv hw⟩
  · rintro ⟨htop, hitems, hentries⟩ hgap
    cases hgap with
    | absent => exact htop rfl
    | item hv hw h => exact hitems _ hv _ hw h
    | entry hv hw h => exact hentries _ hv _ _ hw h

theorem whole_of_scalar (h : v ≠ .missing) (hitems : v.items? = none)
    (hentries : v.entries? = none) : Whole v := by
  rw [whole_iff, hitems, hentries]
  exact ⟨h, nofun, nofun⟩

theorem whole_list {items : List Value} (h : ∀ w ∈ items, Whole w) :
    Whole (.list items) := by
  rw [whole_iff]
  refine ⟨nofun, ?_, nofun⟩
  rintro _ ⟨⟩
  exact h

theorem whole_map {entries : List (String × Value)} (h : ∀ e ∈ entries, Whole e.2) :
    Whole (.map entries) := by
  rw [whole_iff]
  refine ⟨nofun, nofun, ?_⟩
  rintro _ ⟨⟩ key w hw
  exact h _ hw

theorem mem_of_element? {items : List Value} {i : Int} (h : element? items i = some w) :
    w ∈ items := by
  obtain ⟨place, -, hplace⟩ := Option.bind_eq_some_iff.mp h
  exact List.mem_of_getElem? hplace

end Parts

section Walk

variable {v w : Value} {step : Step} {steps : List Step} {trail : List Visit}

theorem whole_of_apply (hv : Whole v) (h : step.apply v = .ok w) : Whole w := by
  cases step with
  | here =>
      cases h
      exact hv
  | index i =>
      obtain ⟨items, hitems, hw⟩ := apply_index_eq_ok_iff.mp h
      exact whole_of_item hv hitems (mem_of_element? hw)
  | key name =>
      obtain ⟨entries, hentries, hw⟩ := apply_key_eq_ok_iff.mp h
      exact whole_of_entry hv hentries (Value.mem_of_lookup? hw)

theorem whole_of_walk (hv : Whole v) (h : walk v steps = .ok (w, trail)) : Whole w :=
  walk_preserves (fun _ _ _ => whole_of_apply) hv h

end Walk

end TreePath.Presence
