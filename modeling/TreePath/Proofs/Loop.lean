import Mathlib.Logic.ExistsUnique

/-!
Loops, turn by turn. If each state has exactly one turn and going round makes some
measure smaller, the loop leaves from every state, in no more turns than the measure
allows, and in one way only.
-/

namespace TreePath.Loop

/-- What a turn comes to. -/
inductive Turn (σ ρ : Type) where
  | again (s : σ)
  | leave (r : ρ)

variable {σ ρ : Type} {turns : σ → Turn σ ρ → Prop} {s : σ} {r : ρ} {n : Nat}

/-- The loop leaves with `r` in its `n`-th turn from `s` on. -/
inductive Leaves (turns : σ → Turn σ ρ → Prop) : σ → Nat → ρ → Prop where
  | leave {s : σ} {r : ρ} (h : turns s (.leave r)) : Leaves turns s 1 r
  | again {s t : σ} {n : Nat} {r : ρ} (h : turns s (.again t)) (hrest : Leaves turns t n r) :
      Leaves turns s (n + 1) r

/-- Each state has exactly one turn. -/
def Definite (turns : σ → Turn σ ρ → Prop) : Prop :=
  ∀ s, ∃! out, turns s out

theorem Definite.intro (hsome : ∀ s, ∃ out, turns s out)
    (honly : ∀ {s out other}, turns s out → turns s other → other = out) : Definite turns := by
  intro s
  obtain ⟨out, hout⟩ := hsome s
  exact ⟨out, hout, fun _ hother => honly hout hother⟩

theorem Leaves.unique (hturns : Definite turns) (h : Leaves turns s n r) {m : Nat} {q : ρ}
    (h' : Leaves turns s m q) : n = m ∧ r = q := by
  induction h generalizing m with
  | leave hleave =>
      cases h' with
      | leave hleave' =>
          cases (hturns _).unique hleave hleave'
          exact ⟨rfl, rfl⟩
      | again hagain' _ => cases (hturns _).unique hleave hagain'
  | again hagain _ ih =>
      cases h' with
      | leave hleave' => cases (hturns _).unique hagain hleave'
      | again hagain' hrest' =>
          cases (hturns _).unique hagain hagain'
          obtain ⟨rfl, rfl⟩ := ih hrest'
          exact ⟨rfl, rfl⟩

theorem exists_leaves (hturns : Definite turns) (measure : σ → Nat)
    (hless : ∀ s t, turns s (.again t) → measure t < measure s) (s : σ) :
    ∃ n r, n ≤ measure s + 1 ∧ Leaves turns s n r := by
  induction hs : measure s using Nat.strongRecOn generalizing s with
  | ind k ih =>
      obtain ⟨out, hout, -⟩ := hturns s
      cases out with
      | leave r => exact ⟨1, r, Nat.le_add_left 1 k, .leave hout⟩
      | again t =>
          have hlt : measure t < k := hs ▸ hless s t hout
          obtain ⟨n, r, hn, hrest⟩ := ih (measure t) hlt t rfl
          exact ⟨n + 1, r, by omega, .again hout hrest⟩

theorem Leaves.value_eq {α : Type} {value : σ → α} {result : ρ → α}
    (hagain : ∀ s t, turns s (.again t) → value s = value t)
    (hleave : ∀ s r, turns s (.leave r) → value s = result r)
    (h : Leaves turns s n r) : value s = result r := by
  induction h with
  | leave h => exact hleave _ _ h
  | again h _ ih => rw [hagain _ _ h, ih]

end TreePath.Loop
