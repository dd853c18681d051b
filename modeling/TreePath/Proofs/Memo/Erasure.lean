import TreePath.Path.Basic
import TreePath.Proofs.Memo.Run

namespace TreePath.Memo

section Run

variable {ε α : Type} {read : String → Except ε α} {m : Memo α}

/-- The call neither failed nor merely looked. -/
def Exchange.lasting (x : Exchange ε α) : Bool :=
  !(x.failed || x.call.observes)

/-- The calls of a run without those that failed or merely looked. -/
def lastingCalls (read : String → Except ε α) (m : Memo α) (calls : List Call) :
    List Call :=
  ((exchanges read m calls).filter Exchange.lasting).map (·.call)

/-- How many requests failed since the last clear. -/
def failures (run : List (Exchange ε α)) : Nat :=
  (recent run).countP Exchange.failed

/-- The memo with so many more misses. -/
def charge (m : Memo α) (count : Nat) : Memo α :=
  { m with misses := m.misses + count }

theorem lasting_iff {x : Exchange ε α} :
    x.lasting = true ↔ x.failed = false ∧ x.call.observes = false := by
  rw [Exchange.lasting, Bool.not_eq_true', Bool.or_eq_false_iff]

theorem failures_concat (run : List (Exchange ε α)) {x : Exchange ε α}
    (h : x.call = .clear → x.failed = false) :
    failures (run ++ [x]) =
      (if x.call = .clear then 0 else failures run) + if x.failed then 1 else 0 := by
  by_cases hclear : x.call = .clear
  · rw [failures, recent_concat_clear run hclear, if_pos hclear, h hclear]
    rfl
  · rw [failures, recent_concat run hclear, if_neg hclear, List.countP_append,
      List.countP_singleton, ← failures]

theorem lastingCalls_concat (calls : List Call) (call : Call) :
    lastingCalls read m (calls ++ [call]) =
      lastingCalls read m calls ++
        if (⟨call, ((m.after read calls).serve read call).1⟩ :
          Exchange ε α).lasting then [call] else [] := by
  rw [lastingCalls, exchanges_concat, List.filter_append, List.map_append,
    ← lastingCalls, List.filter_cons, List.filter_nil]
  split <;> rfl

theorem charge_charge (m : Memo α) (first second : Nat) :
    (m.charge first).charge second = m.charge (first + second) := by
  simp only [charge, Nat.add_assoc]

theorem serve_of_not_lasting (hm : LegalBound m.bound) {call : Call} {x : Exchange ε α}
    (hx : x = ⟨call, (m.serve read call).1⟩) (h : x.lasting = false) :
    call ≠ .clear ∧ (m.serve read call).2 = m.charge (if x.failed then 1 else 0) := by
  subst hx
  cases call with
  | request key =>
      refine ⟨nofun, ?_⟩
      rcases request_cases m read key with
        ⟨a, -, hanswer⟩ | ⟨e, -, -, hanswer⟩ | ⟨a, -, -, hanswer⟩
      · rw [serve, hanswer] at h
        cases h
      · rw [serve, hanswer]
        rfl
      · rw [serve, hanswer, canHold_of_legal hm] at h
        cases h
  | contains key => exact ⟨nofun, rfl⟩
  | size => exact ⟨nofun, rfl⟩
  | info => exact ⟨nofun, rfl⟩
  | clear => cases h
  | setBound bound => cases h

theorem request_charge (m : Memo α) (count : Nat) (read : String → Except ε α)
    (key : String) :
    (m.charge count).request read key =
      ((m.request read key).1, (m.request read key).2.charge count) := by
  rcases request_cases m read key with
    ⟨a, hfind, h⟩ | ⟨e, hfind, hread, h⟩ | ⟨a, hfind, hread, h⟩
  · rw [h, request_of_find? (m := m.charge count) hfind]
    rfl
  · rw [h, request_of_error (m := m.charge count) hfind hread]
    simp only [charge, Nat.add_right_comm]
  · rw [h, request_of_ok (m := m.charge count) hfind hread]
    simp only [charge, Nat.add_right_comm]
    rfl

theorem serve_charge {call : Call} (h : call.observes = false) (count : Nat) :
    (m.charge count).serve read call =
      ((m.serve read call).1,
        (m.serve read call).2.charge (if call = .clear then 0 else count)) := by
  cases call with
  | request key => rw [serve, request_charge, if_neg nofun, serve]
  | clear => rfl
  | setBound bound => rfl
  | contains key => cases h
  | size => cases h
  | info => cases h

theorem legalBound_after (hm : LegalBound m.bound) {calls : List Call}
    (hcalls : ∀ call ∈ calls, call.Legal) : LegalBound (m.after read calls).bound := by
  induction calls using List.reverseRecOn with
  | nil => exact hm
  | append_singleton calls call ih =>
      rw [List.forall_mem_append, List.forall_mem_singleton] at hcalls
      rw [after_concat]
      cases call with
      | request key => exact bound_request (m.after read calls) read key ▸ ih hcalls.1
      | setBound bound => exact hcalls.2
      | contains key => exact ih hcalls.1
      | size => exact ih hcalls.1
      | info => exact ih hcalls.1
      | clear => exact ih hcalls.1

/-- A run without the calls that failed or looked goes as it did with them, and only
the misses of the failed ones since the last clear are not counted. -/
theorem run_lastingCalls (hm : LegalBound m.bound) {calls : List Call}
    (hcalls : ∀ call ∈ calls, call.Legal) :
    exchanges read m (lastingCalls read m calls) =
        (exchanges read m calls).filter Exchange.lasting ∧
      m.after read calls =
        (m.after read (lastingCalls read m calls)).charge
          (failures (exchanges read m calls)) := by
  induction calls using List.reverseRecOn with
  | nil => exact ⟨rfl, rfl⟩
  | append_singleton calls call ih =>
      rw [List.forall_mem_append] at hcalls
      obtain ⟨hrun, hafter⟩ := ih hcalls.1
      have hbound : LegalBound (m.after read calls).bound := legalBound_after hm hcalls.1
      obtain ⟨x, hx⟩ : ∃ x : Exchange ε α,
          x = ⟨call, ((m.after read calls).serve read call).1⟩ := ⟨_, rfl⟩
      have hcall : x.call = call := by rw [hx]
      rw [lastingCalls_concat, exchanges_concat, ← hx, List.filter_append,
        List.filter_cons, List.filter_nil, after_concat]
      cases hlasting : x.lasting with
      | false =>
          obtain ⟨hclear, hserve⟩ := serve_of_not_lasting hbound hx hlasting
          rw [if_neg Bool.false_ne_true, if_neg Bool.false_ne_true, List.append_nil,
            List.append_nil, failures_concat _ fun h => absurd (hcall ▸ h) hclear, hcall,
            if_neg hclear, hserve, ← charge_charge, ← hafter]
          exact ⟨hrun, rfl⟩
      | true =>
          obtain ⟨hfailed, hobserves⟩ := lasting_iff.mp hlasting
          rw [hcall] at hobserves
          rw [hafter, serve_charge hobserves] at hx
          rw [if_pos rfl, if_pos rfl, exchanges_concat, after_concat, hrun,
            failures_concat _ fun _ => hfailed, hafter, serve_charge hobserves, hfailed, hx]
          exact ⟨rfl, rfl⟩

end Run

/-- Requests that failed and calls that merely looked can be left out of a run: every other
call hands out the same, and the entries and hits are the same. The misses differ by the
failed requests since the last clear. -/
theorem failures_and_looks_are_erasable {m : Memo (List Step)}
    (hm : LegalBound m.bound) {calls : List Call}
    (hcalls : ∀ call ∈ calls, call.Legal) :
    let run := exchanges parseSteps m calls
    let kept := run.filter Exchange.lasting
    let whole := m.after parseSteps calls
    let rest := m.after parseSteps (kept.map (·.call))
    exchanges parseSteps m (kept.map (·.call)) = kept ∧
      rest.entries = whole.entries ∧ rest.hits = whole.hits ∧
      rest.bound = whole.bound ∧ whole.misses = rest.misses + failures run := by
  intro run kept whole rest
  obtain ⟨hrun, hwhole⟩ : exchanges parseSteps m (kept.map (·.call)) = kept ∧
      whole = rest.charge (failures run) := run_lastingCalls hm hcalls
  rw [hwhole]
  exact ⟨hrun, rfl, rfl, rfl, rfl⟩

theorem failures_and_looks_are_erasable_around_clear :
    let m : Memo (List Step) := ofBound (some 2)
    let calls : List Call :=
      [.request "[", .clear, .request "a", .request "b", .contains "a", .request "a.[x]",
        .request "a", .setBound (some 1), .info, .request "[", .size, .request "c"]
    let kept : List Call :=
      [.clear, .request "a", .request "b", .request "a", .setBound (some 1), .request "c"]
    LegalBound m.bound ∧ (∀ call ∈ calls, call.Legal) ∧
      (m.after parseSteps kept).entries = (m.after parseSteps calls).entries ∧
      (m.after parseSteps calls).misses = (m.after parseSteps kept).misses + 2 := by
  intro m calls kept
  have hm : LegalBound m.bound := by
    simp [m, LegalBound, ofBound]
  have hcalls : ∀ call ∈ calls, call.Legal := by
    simp [calls, Call.Legal, LegalBound]
  have hkept : ((exchanges parseSteps m calls).filter Exchange.lasting).map (·.call) =
      kept := by
    decide +kernel
  have hfailures : failures (exchanges parseSteps m calls) = 2 := by
    decide +kernel
  obtain ⟨-, hentries, -, -, hmisses⟩ := failures_and_looks_are_erasable hm hcalls
  rw [hkept] at hentries hmisses
  rw [hfailures] at hmisses
  exact ⟨hm, hcalls, hentries, hmisses⟩

end TreePath.Memo
