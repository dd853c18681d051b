import Mathlib.Data.List.DropRight
import Mathlib.Data.List.Nodup
import TreePath.Memo

namespace TreePath.Memo

variable {α ε : Type}

theorem mem_keys_iff {m : Memo α} {key : String} :
    key ∈ m.keys ↔ ∃ a, (key, a) ∈ m.entries := by
  simp [keys]

theorem mem_entries_of_find? {m : Memo α} {key : String} {a : α}
    (h : m.find? key = some a) : (key, a) ∈ m.entries := by
  simp only [find?, Option.map_eq_some_iff] at h
  obtain ⟨⟨k, b⟩, hfind, rfl⟩ := h
  have hk : k = key := by simpa using List.find?_some hfind
  rw [← hk]
  exact List.mem_of_find?_eq_some hfind

theorem find?_eq_none_iff {m : Memo α} {key : String} :
    m.find? key = none ↔ key ∉ m.keys := by
  simp only [find?, keys, Option.map_eq_none_iff, List.find?_eq_none, beq_iff_eq,
    List.mem_map, not_exists, not_and]

theorem request_of_find? {m : Memo α} {key : String} {a : α}
    (h : m.find? key = some a) (read : String → Except ε α) :
    m.request read key =
      (.held a, { m with
        entries := if m.bound.isSome then putLast m.entries key a else m.entries
        hits := m.hits + 1 }) := by
  simp only [request, h]

theorem request_of_error {m : Memo α} {key : String} {e : ε}
    {read : String → Except ε α} (h : m.find? key = none)
    (hread : read key = .error e) :
    m.request read key = (.failed e, { m with misses := m.misses + 1 }) := by
  simp only [request, h, hread]

theorem request_of_ok {m : Memo α} {key : String} {a : α}
    {read : String → Except ε α} (h : m.find? key = none)
    (hread : read key = .ok a) :
    m.request read key =
      (if canHold m.bound then .fresh a else .unkept a,
        { m with
          entries := shrink m.bound (putLast m.entries key a)
          misses := m.misses + 1 }) := by
  simp only [request, h, hread]

theorem request_cases (m : Memo α) (read : String → Except ε α) (key : String) :
    (∃ a, m.find? key = some a ∧
      m.request read key =
        (.held a, { m with
          entries := if m.bound.isSome then putLast m.entries key a else m.entries
          hits := m.hits + 1 })) ∨
    (∃ e, m.find? key = none ∧ read key = .error e ∧
      m.request read key = (.failed e, { m with misses := m.misses + 1 })) ∨
    ∃ a, m.find? key = none ∧ read key = .ok a ∧
      m.request read key =
        (if canHold m.bound then .fresh a else .unkept a,
          { m with
            entries := shrink m.bound (putLast m.entries key a)
            misses := m.misses + 1 }) := by
  cases hfind : m.find? key with
  | some a => exact Or.inl ⟨a, rfl, request_of_find? hfind read⟩
  | none =>
      cases hread : read key with
      | error e => exact Or.inr (Or.inl ⟨e, rfl, rfl, request_of_error hfind hread⟩)
      | ok a => exact Or.inr (Or.inr ⟨a, rfl, rfl, request_of_ok hfind hread⟩)

theorem bound_request (m : Memo α) (read : String → Except ε α) (key : String) :
    (m.request read key).2.bound = m.bound := by
  rcases request_cases m read key with ⟨a, -, h⟩ | ⟨e, -, -, h⟩ | ⟨a, -, -, h⟩ <;> rw [h]

theorem shrink_suffix (bound : Option Int) (entries : List (String × α)) :
    shrink bound entries <:+ entries := by
  cases bound with
  | none => exact List.suffix_rfl
  | some n => exact List.drop_suffix _ _

theorem keys_putLast (entries : List (String × α)) (key : String) (a : α) :
    (putLast entries key a).map (·.1) =
      (entries.map (·.1)).filter (· != key) ++ [key] := by
  simp only [putLast, List.map_append, List.map_cons, List.map_nil,
    List.filter_map]
  rfl

theorem keys_shrink (n : Int) (entries : List (String × α)) :
    (shrink (some n) entries).map (·.1) = (entries.map (·.1)).rtake n.toNat := by
  rw [shrink, List.rtake, List.map_drop, List.length_map]

theorem nodup_putLast {entries : List (String × α)} (key : String) (a : α)
    (h : (entries.map (·.1)).Nodup) :
    ((putLast entries key a).map (·.1)).Nodup := by
  rw [keys_putLast, List.nodup_append]
  refine ⟨h.filter _, List.nodup_singleton key, ?_⟩
  intro x hx y hy
  rw [List.mem_singleton.mp hy]
  simpa using (List.mem_filter.mp hx).2

theorem mem_putLast {entries : List (String × α)} {key : String} {a : α}
    {e : String × α} (h : e ∈ putLast entries key a) :
    e ∈ entries ∨ e = (key, a) := by
  rcases List.mem_append.mp h with h | h
  · exact Or.inl (List.mem_filter.mp h).1
  · exact Or.inr (List.mem_singleton.mp h)

end TreePath.Memo
