import Mathlib.Data.List.TakeWhile
import TreePath.Proofs.Reading.Grammar

namespace TreePath.Leaf

open TreePath.Grammar
open TreePath.Reading

section Run

variable {p : Char → Bool} {P : Char → Prop}

theorem takeWhile_eq_nil_of_clear (hp : ∀ c, p c = true ↔ P c) {rest : List Char}
    (hrest : Clear P rest) : rest.takeWhile p = [] := by
  cases rest with
  | nil => rfl
  | cons c cs =>
      have hc : p c = false := by
        rw [Bool.eq_false_iff, ne_eq, hp c]
        exact clear_cons_iff.mp hrest
      rw [List.takeWhile_cons, hc]
      rfl

theorem takeWhile_append_of_clear (hp : ∀ c, p c = true ↔ P c)
    {run rest : List Char} (hrun : ∀ c ∈ run, P c) (hrest : Clear P rest) :
    (run ++ rest).takeWhile p = run := by
  rw [List.takeWhile_append_of_pos fun c hc => (hp c).mpr (hrun c hc),
    takeWhile_eq_nil_of_clear hp hrest, List.append_nil]

theorem dropWhile_append_of_clear (hp : ∀ c, p c = true ↔ P c)
    {run rest : List Char} (hrun : ∀ c ∈ run, P c) (hrest : Clear P rest) :
    (run ++ rest).dropWhile p = rest := by
  have hall := List.takeWhile_append_dropWhile (p := p) (l := run ++ rest)
  rw [takeWhile_append_of_clear hp hrun hrest] at hall
  exact List.append_cancel_left hall

theorem of_mem_takeWhile (hp : ∀ c, p c = true ↔ P c) {s : List Char} :
    ∀ c ∈ s.takeWhile p, P c := by
  intro c hc
  exact (hp c).mp (List.mem_takeWhile_imp hc)

theorem clear_dropWhile (hp : ∀ c, p c = true ↔ P c) (s : List Char) :
    Clear P (s.dropWhile p) := by
  induction s with
  | nil => exact clear_nil P
  | cons d s ih =>
      rw [List.dropWhile_cons]
      split
      · exact ih
      · rename_i hd
        rw [clear_cons_iff, ← hp d]
        exact hd

end Run

section Numeral

theorem split?_append {n : Numeral} (hne : n.digits ≠ [])
    (hdigits : ∀ c ∈ n.digits, IsDigit c) {rest : List Char}
    (hrest : Clear IsDigit rest) :
    Numeral.split? (n.toList ++ rest) = some (n, rest) := by
  obtain ⟨negative, digits⟩ := n
  obtain ⟨d, ds, rfl⟩ := List.exists_cons_of_ne_nil hne
  have htake := takeWhile_append_of_clear (fun _ => isDigit_iff) hdigits hrest
  have hdrop := dropWhile_append_of_clear (fun _ => isDigit_iff) hdigits hrest
  rw [List.cons_append] at htake hdrop
  cases negative with
  | true =>
      simp only [Numeral.toList, ↓reduceIte, List.cons_append, Numeral.split?,
        htake, hdrop]
  | false =>
      have hd : d ≠ '-' := by
        rintro rfl
        exact absurd (hdigits '-' List.mem_cons_self) (by decide)
      simp only [Numeral.toList, Bool.false_eq_true, ↓reduceIte, List.cons_append]
      rw [Numeral.split?]
      · rw [htake, hdrop]
      · intro r hr
        exact hd (List.cons.inj hr).1

theorem isDigit_of_split? {s rest : List Char} {n : Numeral}
    (h : Numeral.split? s = some (n, rest)) : ∀ c ∈ n.digits, IsDigit c := by
  unfold Numeral.split? at h
  split at h <;> split at h
  · cases h
  · rename_i r _ d ds hds
    cases h
    rw [← hds]
    exact of_mem_takeWhile fun _ => isDigit_iff
  · cases h
  · rename_i r _ _ d ds hds
    cases h
    rw [← hds]
    exact of_mem_takeWhile fun _ => isDigit_iff

theorem clear_isDigit_of_split? {s rest : List Char} {n : Numeral}
    (h : Numeral.split? s = some (n, rest)) : Clear IsDigit rest := by
  unfold Numeral.split? at h
  split at h <;> split at h
  · cases h
  · cases h
    exact clear_dropWhile (fun _ => isDigit_iff) _
  · cases h
  · cases h
    exact clear_dropWhile (fun _ => isDigit_iff) _

end Numeral

section Quoted

variable {c : Char}

theorem unquote?_pair (hc : IsEscapable c) (rest : List Char) :
    unquote? (backtick :: c :: rest) = (unquote? rest).map fun r => (c :: r.1, r.2) := by
  rcases hc with rfl | rfl
  · rw [backtick, unquote?]
  · rw [backtick, Text.singleQuote, unquote?]

/-- A backtick that stands for itself: what follows rules out both escapes, and a backtick
is no closing quote. -/
theorem unquote?_lone {rest : List Char} (hrest : Clear IsEscapable rest) :
    unquote? (backtick :: rest) = (unquote? rest).map fun r => (backtick :: r.1, r.2) := by
  rw [backtick, unquote?]
  · rintro r - rfl
    exact clear_cons_iff.mp hrest (Or.inl rfl)
  · rintro r - rfl
    exact clear_cons_iff.mp hrest (Or.inr rfl)
  · intro hq
    revert hq
    decide

theorem unquote?_plain (hc : ¬ IsEscapable c) (rest : List Char) :
    unquote? (c :: rest) = (unquote? rest).map fun r => (c :: r.1, r.2) := by
  rw [unquote?]
  · rintro r rfl -
    exact hc (Or.inl rfl)
  · rintro r rfl -
    exact hc (Or.inl rfl)
  · rintro rfl
    exact hc (Or.inr rfl)

theorem unquote?_append_of_plain {run : List Char} (hrun : ∀ c ∈ run, ¬ IsEscapable c)
    (rest : List Char) :
    unquote? (run ++ rest) = (unquote? rest).map fun r => (run ++ r.1, r.2) := by
  induction run with
  | nil => exact Option.map_id'.symm
  | cons c run ih =>
      obtain ⟨hc, hrun⟩ := List.forall_mem_cons.mp hrun
      rw [List.cons_append, unquote?_plain hc, ih hrun, Option.map_map]
      rfl

theorem unquote?_append {raw name : List Char} (h : Quotes raw name)
    (rest : List Char) :
    unquote? (raw ++ Text.singleQuote :: rest) = some (name, rest) := by
  induction h with
  | nil => rfl
  | @pair c raw name hc _ ih =>
      rw [List.cons_append, List.cons_append, unquote?_pair hc, ih]
      rfl
  | @lone c raw name hc _ ih =>
      have hrest : Clear IsEscapable (c :: raw ++ Text.singleQuote :: rest) :=
        clear_cons_iff.mpr hc
      rw [List.cons_append, unquote?_lone hrest, ih]
      rfl
  | @plain c raw name hc _ ih =>
      rw [List.cons_append, unquote?_plain hc, ih]
      rfl

theorem quotes_of_unquote? {s name rest : List Char}
    (h : unquote? s = some (name, rest)) :
    ∃ raw, s = raw ++ Text.singleQuote :: rest ∧ Quotes raw name := by
  induction s using unquote?.induct generalizing name rest with
  | case1 => cases h
  | case2 r ih =>
      simp only [unquote?, Option.map_eq_some_iff, Prod.mk.injEq] at h
      obtain ⟨⟨inner, after⟩, hr, rfl, rfl⟩ := h
      obtain ⟨raw, rfl, hraw⟩ := ih hr
      exact ⟨_, rfl, Quotes.pair (Or.inl rfl) hraw⟩
  | case3 r ih =>
      simp only [unquote?, Option.map_eq_some_iff, Prod.mk.injEq] at h
      obtain ⟨⟨inner, after⟩, hr, rfl, rfl⟩ := h
      obtain ⟨raw, rfl, hraw⟩ := ih hr
      exact ⟨_, rfl, Quotes.pair (Or.inr rfl) hraw⟩
  | case4 r =>
      simp only [unquote?, Option.some.injEq, Prod.mk.injEq] at h
      obtain ⟨rfl, rfl⟩ := h
      exact ⟨[], rfl, Quotes.nil⟩
  | case5 c r htick hquote hclose ih =>
      rw [unquote?] at h
      · simp only [Option.map_eq_some_iff, Prod.mk.injEq] at h
        obtain ⟨⟨inner, after⟩, hr, rfl, rfl⟩ := h
        obtain ⟨raw, rfl, hraw⟩ := ih hr
        refine ⟨c :: raw, rfl, ?_⟩
        by_cases hc : c = backtick
        · subst hc
          cases raw with
          | nil => exact absurd rfl (hquote after rfl)
          | cons d raw =>
              refine Quotes.lone ?_ hraw
              rintro (rfl | rfl)
              · exact htick _ rfl rfl
              · exact hquote _ rfl rfl
        · refine Quotes.plain ?_ hraw
          rintro (rfl | rfl)
          · exact hc rfl
          · exact hclose rfl
      all_goals assumption

end Quoted

end TreePath.Leaf
