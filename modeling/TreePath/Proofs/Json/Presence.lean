import TreePath.Json.Document
import TreePath.Proofs.Json.Cases
import TreePath.Proofs.Value.Presence

namespace TreePath.Presence

open TreePath.Json

section Entries

variable {entries written : List (String × Value)}

theorem mem_putEntry {key : String} {v : Value} {e : String × Value}
    (h : e ∈ putEntry entries key v) : e = (key, v) ∨ e ∈ entries := by
  induction entries with
  | nil => exact Or.inl (List.mem_singleton.mp h)
  | cons first rest ih =>
      rw [putEntry] at h
      split at h
      · rcases List.mem_cons.mp h with rfl | h
        · exact Or.inl rfl
        · exact Or.inr (List.mem_cons_of_mem _ h)
      · rcases List.mem_cons.mp h with rfl | h
        · exact Or.inr List.mem_cons_self
        · exact (ih h).imp_right (List.mem_cons_of_mem _)

theorem mem_foldl_putEntry {e : String × Value}
    (h : e ∈ written.foldl (fun es e => putEntry es e.1 e.2) entries) :
    e ∈ entries ∨ e ∈ written := by
  induction written generalizing entries with
  | nil => exact Or.inl h
  | cons first rest ih =>
      rcases ih h with h | h
      · rcases mem_putEntry h with rfl | h
        · exact Or.inr List.mem_cons_self
        · exact Or.inl h
      · exact Or.inr (List.mem_cons_of_mem _ h)

theorem mem_of_mem_entriesOf {e : String × Value} (h : e ∈ entriesOf written) :
    e ∈ written := by
  rcases mem_foldl_putEntry h with h | h
  · cases h
  · exact h

end Entries

section Scalar

variable {s rest : List Char} {v : Value}

/-- Neither absent nor an array nor a map. -/
def Scalar (v : Value) : Prop :=
  v ≠ .missing ∧ v.items? = none ∧ v.entries? = none

theorem Scalar.whole (h : Scalar v) : Whole v :=
  whole_of_scalar h.1 h.2.1 h.2.2

theorem scalar_of_mem_words {word : List Char} (h : (word, v) ∈ words) : Scalar v := by
  simp only [words, List.mem_cons, Prod.mk.injEq, List.not_mem_nil, or_false] at h
  rcases h with ⟨-, rfl⟩ | ⟨-, rfl⟩ | ⟨-, rfl⟩ | ⟨-, rfl⟩ | ⟨-, rfl⟩ | ⟨-, rfl⟩
  all_goals exact ⟨nofun, rfl, rfl⟩

theorem scalar_of_value {n : NumberText} (h : n.value = .ok v) : Scalar v := by
  unfold NumberText.value at h
  split at h
  · split at h <;> cases h
    exact ⟨nofun, rfl, rfl⟩
  · cases h
    exact ⟨nofun, rfl, rfl⟩

theorem scalar_of_readScalar (h : readScalar s = .ok (v, rest)) : Scalar v := by
  unfold readScalar at h
  split at h
  · rename_i hword
    cases h
    obtain ⟨word, hmem, -⟩ := mem_words_of_readWord? hword
    exact scalar_of_mem_words hmem
  · split at h
    · rename_i n after hnumber
      cases hn : n.value with
      | error e =>
          rw [hn] at h
          cases h
      | ok w =>
          rw [hn] at h
          cases h
          exact scalar_of_value hn
    · cases h

end Scalar

mutual

theorem whole_of_readValue {s : List Char} {v : Value} {rest : Rest s}
    (h : readValue s = .ok (v, rest)) : Whole v := by
  have hread := valueRead s
  rw [h] at hread
  cases hread with
  | text => exact whole_of_scalar nofun rfl rfl
  | emptyList => exact whole_list nofun
  | list hs _ hitems =>
      have := length_lt_of_cons hs
      exact whole_list (whole_of_readItems hitems)
  | emptyMap => exact whole_map nofun
  | map hs _ hmembers =>
      have := length_lt_of_cons hs
      exact whole_map fun e he =>
        whole_of_readMembers hmembers e (mem_of_mem_entriesOf he)
  | scalar _ _ hscalar => exact (scalar_of_readScalar hscalar).whole
termination_by 2 * s.length
decreasing_by all_goals omega

theorem whole_of_readItems {s : List Char} {items : List Value} {rest : Rest s}
    (h : readItems s = .ok (items, rest)) : ∀ v ∈ items, Whole v := by
  have hread := itemsRead s
  rw [h] at hread
  cases hread with
  | last hv => exact List.forall_mem_singleton.mpr (whole_of_readValue hv)
  | more hv hcomma hitems =>
      have := length_lt_of_comma hcomma
      exact List.forall_mem_cons.mpr ⟨whole_of_readValue hv, whole_of_readItems hitems⟩
termination_by 2 * s.length + 1
decreasing_by all_goals omega

theorem whole_of_readMembers {s : List Char} {members : List (String × Value)}
    {rest : Rest s} (h : readMembers s = .ok (members, rest)) :
    ∀ e ∈ members, Whole e.2 := by
  have hread := membersRead s
  rw [h] at hread
  cases hread with
  | last hkey hv =>
      have := length_lt_of_keyBefore hkey
      exact List.forall_mem_singleton.mpr (whole_of_readValue hv)
  | more hkey hv hcomma hmembers =>
      have := length_lt_of_keyBefore hkey
      have := length_lt_of_comma hcomma
      exact List.forall_mem_cons.mpr ⟨whole_of_readValue hv, whole_of_readMembers hmembers⟩
termination_by 2 * s.length + 1
decreasing_by all_goals omega

end

theorem exists_readValue_of_readAny {data v : Value} (h : readAny data = .ok v) :
    ∃ (s : List Char) (rest : Rest s), readValue s = .ok (v, rest) := by
  unfold readAny at h
  split at h
  · cases h
  · split at h <;> cases h
    rename_i hread
    unfold Json.read at hread
    split at hread
    · cases hread
    · rename_i w rest hvalue
      split at hread <;> cases hread
      exact ⟨_, rest, hvalue⟩

theorem whole_of_readAny {data v : Value} (h : readAny data = .ok v) : Whole v := by
  obtain ⟨s, rest, hvalue⟩ := exists_readValue_of_readAny h
  exact whole_of_readValue hvalue

theorem whole_of_readDocument {fragments : Bool} {data v : Value}
    (h : readDocument fragments data = .ok v) : Whole v := by
  unfold readDocument at h
  split at h
  · cases h
  · rename_i w hread
    split at h <;> cases h
    exact whole_of_readAny hread

end TreePath.Presence
