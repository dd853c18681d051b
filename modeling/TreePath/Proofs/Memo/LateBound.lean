import TreePath.Proofs.Memo.Recency

/-!
A bound set late. A memo that was bounded before has kept its texts in order of
their last request and gives way as if it had had the new bound all along. One
that was not has kept them in order of their first request and gives way by that.
-/

namespace TreePath.Memo

section Lists

variable {α : Type}

theorem rtake_rtake {l : List α} {n k : Nat} (h : n ≤ k) :
    (l.rtake k).rtake n = l.rtake n := by
  rw [List.rtake, List.rtake, List.rtake, List.drop_drop, List.length_drop]
  congr 1
  omega

theorem rtake_concat_rtake (l : List α) (a : α) {n k : Nat} (h : n ≤ k) :
    (l.rtake k ++ [a]).rtake n = (l ++ [a]).rtake n := by
  cases n with
  | zero => rw [List.rtake_zero, List.rtake_zero]
  | succ n =>
      rw [List.rtake_concat_succ, List.rtake_concat_succ,
        rtake_rtake (Nat.le_of_succ_le h)]

theorem eraseDups_of_nodup [DecidableEq α] {l : List α} (h : l.Nodup) :
    l.eraseDups = l := by
  induction l using List.reverseRecOn with
  | nil => rfl
  | append_singleton l a ih =>
      rw [List.nodup_append] at h
      have hout : a ∉ l := fun ha => h.2.2 a ha a List.mem_cons_self rfl
      rw [eraseDups_concat, if_neg hout, ih h.1]

end Lists

section Request

variable {α ε : Type} {read : String → Except ε α} {m : Memo α}

theorem keys_request_of_new {n : Int} (hbound : m.bound = some n) {key : String}
    {a : α} (hnew : key ∉ m.keys) (hread : read key = .ok a) :
    (m.request read key).2.keys = (m.keys ++ [key]).rtake n.toNat := by
  rw [request_of_ok (find?_eq_none_iff.mpr hnew) hread]
  simp only [hbound, keys, keys_shrink, keys_putLast]
  rw [← keys, filter_ne_of_notMem hnew]

theorem keys_after_late_bound {calls : List Call} {n : Int} {key : String} {a : α}
    (hnew : key ∉ (m.after read calls).keys) (hread : read key = .ok a) :
    (m.after read (calls ++ [.setBound (some n), .request key])).keys =
      ((m.after read calls).keys ++ [key]).rtake n.toNat := by
  rw [after_append]
  exact keys_request_of_new (m := (m.after read calls).setBound (some n)) rfl
    hnew hread

theorem notMem_keys_after {bound : Option Int} {fresh : Memo α}
    (hfresh : create bound = .ok fresh) {calls : List Call}
    (h : ∀ bound, Call.setBound bound ∉ calls) {text : String}
    (hnew : text ∉ history read calls) : text ∉ (fresh.after read calls).keys := by
  cases bound with
  | none => exact mt (mem_keys_after_of_unbounded hfresh h text).mp hnew
  | some n =>
      rw [keys_after_of_bounded hfresh h]
      intro hmem
      exact hnew (List.mem_dedup.mp (List.mem_of_mem_drop hmem))

theorem keys_after_new {n : Int} {fresh : Memo α}
    (hfresh : create (some n) = .ok fresh) {calls : List Call}
    (h : ∀ bound, Call.setBound bound ∉ calls) {text : String} {a : α}
    (hread : read text = .ok a) (hnew : text ∉ history read calls) :
    (fresh.after read (calls ++ [.request text])).keys =
      ((history read calls).dedup ++ [text]).rtake n.toNat := by
  obtain ⟨-, rfl⟩ := create_eq_ok_iff.mp hfresh
  have hbound : ((ofBound (some n) : Memo α).after read calls).bound = some n :=
    bound_after h
  calc
    ((ofBound (some n)).after read (calls ++ [.request text])).keys =
        (((ofBound (some n)).after read calls).keys ++ [text]).rtake n.toNat := by
      rw [after_concat]
      exact keys_request_of_new hbound (notMem_keys_after hfresh h hnew) hread
    _ = ((history read calls).dedup ++ [text]).rtake n.toNat := by
      rw [keys_after_of_bounded hfresh h, rtake_concat_rtake _ _ le_rfl]

theorem keys_after_late_bound_eq {n : Int} {bound : Option Int} {fresh : Memo α}
    (hfresh : create bound = .ok fresh) (hwide : ∀ k ∈ bound, n ≤ k)
    {calls : List Call} (h : ∀ bound, Call.setBound bound ∉ calls) {text : String}
    {a : α} (hread : read text = .ok a) (hnew : text ∉ history read calls) :
    (fresh.after read (calls ++ [.setBound (some n), .request text])).keys =
      match bound with
      | some _ => ((history read calls).dedup ++ [text]).rtake n.toNat
      | none => ((history read calls).eraseDups ++ [text]).rtake n.toNat := by
  rw [keys_after_late_bound (notMem_keys_after hfresh h hnew) hread]
  cases bound with
  | none => rw [keys_after_of_unbounded hfresh h]
  | some k =>
      have hle : n.toNat ≤ k.toNat := Int.toNat_le_toNat (hwide k rfl)
      rw [keys_after_of_bounded hfresh h, rtake_concat_rtake _ _ hle]

end Request

/-- What is held behind a text that is new since the last clear depends on the bound in
force before: under one no smaller, the texts requested last; without a bound, the texts
whose first request came last. -/
theorem late_bound_evicts_by_order_of_keeping {n : Int} {bound : Option Int}
    {early start : Memo (List Step)} (hearly : create (some n) = .ok early)
    (hstart : create bound = .ok start) (hwide : ∀ k ∈ bound, n ≤ k)
    {calls : List Call} (h : ∀ bound, Call.setBound bound ∉ calls) {text : String}
    {steps : List Step} (hread : parseSteps text = .ok steps)
    (hnew : text ∉ history parseSteps calls) :
    let requested := history parseSteps calls
    let lateKeys :=
      (start.after parseSteps (calls ++ [.setBound (some n), .request text])).keys
    let earlyKeys := (early.after parseSteps (calls ++ [.request text])).keys
    earlyKeys = (requested.dedup ++ [text]).rtake n.toNat ∧
      (bound ≠ none → lateKeys = earlyKeys) ∧
      (bound = none → lateKeys = (requested.eraseDups ++ [text]).rtake n.toNat) ∧
      (requested.Nodup → lateKeys = earlyKeys) := by
  intro requested lateKeys earlyKeys
  have hearlyKeys : earlyKeys = (requested.dedup ++ [text]).rtake n.toNat :=
    keys_after_new hearly h hread hnew
  have hlateKeys := keys_after_late_bound_eq hstart hwide h hread hnew
  rw [hearlyKeys]
  cases bound with
  | none =>
      refine ⟨rfl, fun hne => absurd rfl hne, fun _ => hlateKeys, ?_⟩
      intro hnodup
      rw [hnodup.dedup, ← eraseDups_of_nodup hnodup]
      exact hlateKeys
  | some k => exact ⟨rfl, fun _ => hlateKeys, nofun, fun _ => hlateKeys⟩

theorem late_bound_evicts_by_order_of_keeping_at_two :
    let calls : List Call :=
      [.request "a", .request "b", .request "[", .request "a", .contains "b"]
    let more : List Call := [.setBound (some 2), .request "c"]
    create (some 2) = .ok (ofBound (some 2) : Memo (List Step)) ∧
      create (some 3) = .ok (ofBound (some 3) : Memo (List Step)) ∧
      create none = .ok (ofBound none : Memo (List Step)) ∧
      (∀ bound, Call.setBound bound ∉ calls) ∧
      parseSteps "c" = .ok [.key "c"] ∧ "c" ∉ history parseSteps calls ∧
      ((ofBound (some 3)).after parseSteps (calls ++ more)).keys = ["a", "c"] ∧
      ((ofBound none).after parseSteps (calls ++ more)).keys = ["b", "c"] := by
  intro calls more
  have hearly : create (some 2) = .ok (ofBound (some 2) : Memo (List Step)) := rfl
  have hwide : create (some 3) = .ok (ofBound (some 3) : Memo (List Step)) := rfl
  have hopen : create none = .ok (ofBound none : Memo (List Step)) := rfl
  have hcalls : ∀ bound, Call.setBound bound ∉ calls := by
    simp [calls]
  have hread : parseSteps "c" = .ok [.key "c"] := by decide +kernel
  have hnew : "c" ∉ history parseSteps calls := by decide +kernel
  obtain ⟨hkeys, hbounded, -, -⟩ := late_bound_evicts_by_order_of_keeping hearly
    hwide (by simp) hcalls hread hnew
  obtain ⟨-, -, hunbounded, -⟩ := late_bound_evicts_by_order_of_keeping hearly
    hopen (by simp) hcalls hread hnew
  refine ⟨hearly, hwide, hopen, hcalls, hread, hnew, ?_, ?_⟩
  · exact ((hbounded nofun).trans hkeys).trans (by decide +kernel)
  · exact (hunbounded rfl).trans (by decide +kernel)

/-- A hit does not count as a use while there is no bound: the text that was
requested first gives way, although it was requested again after the other. -/
theorem late_bound_evicts_text_used_last :
    let calls : List Call := [.request "a", .request "b", .request "a"]
    let late : Memo (List Step) :=
      (ofBound none).after parseSteps (calls ++ [.setBound (some 2), .request "c"])
    let early : Memo (List Step) :=
      (ofBound (some 2)).after parseSteps (calls ++ [.request "c"])
    late.keys = ["b", "c"] ∧ early.keys = ["a", "c"] := by
  decide +kernel

end TreePath.Memo
