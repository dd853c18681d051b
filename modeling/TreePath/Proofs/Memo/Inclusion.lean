import TreePath.Proofs.Memo.LateBound

namespace TreePath.Memo

section Run

variable {ε α : Type} {read : String → Except ε α} {m₁ m₂ : Memo α}

/-- The second bound leaves all the room that the first leaves; no bound leaves any. -/
def AtMost (small large : Option Int) : Prop :=
  ∀ k ∈ large, ∃ n ∈ small, n ≤ k

/-- In as many requests the second memo hit at least as often. -/
structure Outdone (m₁ m₂ : Memo α) : Prop where
  hits : m₁.hits ≤ m₂.hits
  misses : m₂.misses ≤ m₁.misses
  requests : m₁.hits + m₁.misses = m₂.hits + m₂.misses

/-- The memo with more room holds what the other one does: of the texts requested, each
holds those requested last, and the one without a bound holds all. -/
theorem keys_after_subset {small large : Option Int} (h₁ : create small = .ok m₁)
    (h₂ : create large = .ok m₂) (hle : AtMost small large) {calls : List Call}
    (h : ∀ bound, Call.setBound bound ∉ calls) :
    (m₁.after read calls).keys ⊆ (m₂.after read calls).keys := by
  cases large with
  | none =>
      intro text htext
      rw [mem_keys_after_of_unbounded h₂ h]
      by_contra hout
      exact notMem_keys_after h₁ h hout htext
  | some k =>
      obtain ⟨n, hn, hnk⟩ := hle k rfl
      obtain rfl : small = some n := hn
      rw [keys_after_of_bounded h₁ h, keys_after_of_bounded h₂ h,
        ← rtake_rtake (Int.toNat_le_toNat hnk)]
      exact List.drop_subset _ _

theorem Outdone.request (h : Outdone m₁ m₂) (hkeys : m₁.keys ⊆ m₂.keys) (key : String) :
    Outdone (m₁.request read key).2 (m₂.request read key).2 := by
  obtain ⟨hhits, hmisses, hrequests⟩ := h
  have hfirst := counts_request m₁ read key
  have hsecond := counts_request m₂ read key
  by_cases hheld : key ∈ m₁.keys
  · rw [if_pos hheld] at hfirst
    rw [if_pos (hkeys hheld)] at hsecond
    constructor <;> omega
  · rw [if_neg hheld] at hfirst
    split at hsecond <;> constructor <;> omega

theorem Outdone.serve (h : Outdone m₁ m₂) (hkeys : m₁.keys ⊆ m₂.keys) (call : Call) :
    Outdone (m₁.serve read call).2 (m₂.serve read call).2 := by
  cases call with
  | request key => exact h.request hkeys key
  | contains key => exact h
  | size => exact h
  | info => exact h
  | clear => exact ⟨Nat.le_refl 0, Nat.le_refl 0, rfl⟩
  | setBound bound => exact ⟨h.hits, h.misses, h.requests⟩

theorem outdone_after {small large : Option Int} (h₁ : create small = .ok m₁)
    (h₂ : create large = .ok m₂) (hle : AtMost small large) {calls : List Call}
    (h : ∀ bound, Call.setBound bound ∉ calls) :
    Outdone (m₁.after read calls) (m₂.after read calls) := by
  induction calls using List.reverseRecOn with
  | nil =>
      obtain ⟨-, rfl⟩ := create_eq_ok_iff.mp h₁
      obtain ⟨-, rfl⟩ := create_eq_ok_iff.mp h₂
      exact ⟨Nat.le_refl 0, Nat.le_refl 0, rfl⟩
  | append_singleton calls call ih =>
      have hcalls : ∀ bound, Call.setBound bound ∉ calls :=
        fun bound hmem => h bound (List.mem_append_left _ hmem)
      rw [after_concat, after_concat]
      exact (ih hcalls).serve (keys_after_subset h₁ h₂ hle hcalls) call

end Run

/-- Of two memos that start empty and go through the same calls, none of which sets a
bound, the one with more room holds at every point whatever the other one holds, has hit
at least as often, has missed at most as often, and has met as many requests. -/
theorem more_room_is_never_worse {small large : Option Int} {m₁ m₂ : Memo (List Step)}
    (h₁ : create small = .ok m₁) (h₂ : create large = .ok m₂)
    (hle : AtMost small large) {calls : List Call}
    (h : ∀ bound, Call.setBound bound ∉ calls) :
    ∀ front, front <+: calls →
      let m := m₁.after parseSteps front
      let m' := m₂.after parseSteps front
      m.keys ⊆ m'.keys ∧ m.hits ≤ m'.hits ∧ m'.misses ≤ m.misses ∧
        m.hits + m.misses = m'.hits + m'.misses := by
  intro front hfront m m'
  have hcalls : ∀ bound, Call.setBound bound ∉ front :=
    fun bound hmem => h bound (hfront.subset hmem)
  obtain ⟨hhits, hmisses, hrequests⟩ : Outdone m m' := outdone_after h₁ h₂ hle hcalls
  exact ⟨keys_after_subset h₁ h₂ hle hcalls, hhits, hmisses, hrequests⟩

theorem more_room_is_never_worse_in_front_of_clear :
    let front : List Call :=
      [.request "a", .request "b", .request "[", .request "a", .request "c", .request "a"]
    let calls : List Call := front ++ [.clear, .request "b"]
    let one : Memo (List Step) := ofBound (some 1)
    let two : Memo (List Step) := ofBound (some 2)
    let any : Memo (List Step) := ofBound none
    create (some 1) = .ok one ∧ create (some 2) = .ok two ∧ create none = .ok any ∧
      AtMost (some 1) (some 2) ∧ AtMost (some 2) none ∧
      (∀ bound, Call.setBound bound ∉ calls) ∧ front <+: calls ∧
      (one.after parseSteps front).keys ⊆ (two.after parseSteps front).keys ∧
      (two.after parseSteps front).keys ⊆ (any.after parseSteps front).keys ∧
      (one.after parseSteps front).hits = 0 ∧ (two.after parseSteps front).hits = 2 ∧
      2 ≤ (any.after parseSteps front).hits := by
  intro front calls one two any
  have hone : create (some 1) = .ok one := rfl
  have htwo : create (some 2) = .ok two := rfl
  have hany : create none = .ok any := rfl
  have hcalls : ∀ bound, Call.setBound bound ∉ calls := by
    simp [calls, front]
  have hfront : front <+: calls := List.prefix_append _ _
  have hleft : AtMost (some 1) (some 2) := by simp [AtMost]
  have hright : AtMost (some 2) none := by simp [AtMost]
  have hhits : (two.after parseSteps front).hits = 2 := by decide +kernel
  obtain ⟨hsmall, -⟩ :=
    more_room_is_never_worse hone htwo hleft hcalls front hfront
  obtain ⟨hlarge, hmore, -⟩ :=
    more_room_is_never_worse htwo hany hright hcalls front hfront
  exact ⟨hone, htwo, hany, hleft, hright, hcalls, hfront, hsmall, hlarge, by decide +kernel, hhits,
    hhits ▸ hmore⟩

end TreePath.Memo
