import TreePath.Proofs.Reading.Concatenation

namespace TreePath.Lazy

open TreePath.Acceptance
open TreePath.Concatenation
open TreePath.Grammar
open TreePath.Reading
open TreePath.Result
open TreePath.Seam

section Pull

variable {s : List Char}

theorem pull_zero (s : List Char) : pull (some 0) s = ([], .taken) := by
  rw [pull, if_pos rfl]

theorem pull_succ_nil (k : Nat) : pull (some (k + 1)) [] = ([], .exhausted) := by
  rw [pull, if_neg (by simp)]
  rfl

theorem pull_some_eq (k : Nat) (s : List Char) :
    pull (some k) s =
      if k ≤ (pull none s).1.length then ((pull none s).1.take k, .taken)
      else pull none s := by
  induction s using readAll.induct generalizing k with
  | case1 s hs =>
      obtain rfl := List.isEmpty_iff.mp hs
      cases k with
      | zero =>
          rw [pull_zero, pull_nil]
          rfl
      | succ k =>
          rw [pull_succ_nil, pull_nil]
          rfl
  | case2 s hs h hstep =>
      have hne : s ≠ [] := by rwa [List.isEmpty_iff] at hs
      rw [pull_of_error hne hstep]
      cases k with
      | zero => exact pull_zero s
      | succ k => exact pull_limit_of_error (by simp) hne hstep
  | case3 s hs step rest hstep ih =>
      rw [pull_of_readStep hstep]
      cases k with
      | zero => exact pull_zero s
      | succ k =>
          rw [pull_limit_of_readStep (by simp) hstep, Option.map_some,
            Nat.add_sub_cancel, ih k]
          simp only [List.length_cons, Nat.add_le_add_iff_right, List.take_succ_cons]
          split <;> rfl

end Pull

section Visit

variable {σ : Type} (visitor : σ → Step → Nat → σ × Bool)

/-- The state of a visitor behind some calls, each of a step and its place. -/
def stateBehind (state : σ) (calls : List (Step × Nat)) : σ :=
  calls.foldl (fun now call => (visitor now call.1 call.2).1) state

/-- The visitor asks to stop at the call of this number, if it gets there. -/
def StopsAt (state : σ) (calls : List (Step × Nat)) (i : Nat) : Prop :=
  ∃ call, calls[i]? = some call ∧
    (visitor (stateBehind visitor state (calls.take i)) call.1 call.2).2 = true

/-- The call of this number is the first at which the visitor asks to stop. -/
def FirstStop (state : σ) (calls : List (Step × Nat)) (i : Nat) : Prop :=
  StopsAt visitor state calls i ∧ ∀ j < i, ¬ StopsAt visitor state calls j

/-- The halt of a run that did not come to its end. -/
def halt? : Ending → Option Halt
  | .halted h => some h
  | _ => none

variable {visitor} {state : σ} {call : Step × Nat} {calls more : List (Step × Nat)}

theorem stopsAt_zero_iff :
    StopsAt visitor state (call :: calls) 0 ↔
      (visitor state call.1 call.2).2 = true := by
  simp [StopsAt, stateBehind]

theorem stopsAt_succ_iff {i : Nat} :
    StopsAt visitor state (call :: calls) (i + 1) ↔
      StopsAt visitor (visitor state call.1 call.2).1 calls i := by
  simp [StopsAt, stateBehind]

theorem firstStop_succ_iff {i : Nat} (h : (visitor state call.1 call.2).2 = false) :
    FirstStop visitor state (call :: calls) (i + 1) ↔
      FirstStop visitor (visitor state call.1 call.2).1 calls i := by
  have hzero : ¬ StopsAt visitor state (call :: calls) 0 := by
    rw [stopsAt_zero_iff, h]
    exact Bool.false_ne_true
  rw [FirstStop, FirstStop, stopsAt_succ_iff]
  refine and_congr_right fun _ => ?_
  constructor
  · intro hbefore j hj hstop
    exact hbefore (j + 1) (Nat.succ_lt_succ hj) (stopsAt_succ_iff.mpr hstop)
  · intro hbefore j hj hstop
    cases j with
    | zero => exact hzero hstop
    | succ j =>
        exact hbefore j (Nat.lt_of_succ_lt_succ hj) (stopsAt_succ_iff.mp hstop)

theorem stopsAt_append_iff {i : Nat} (hi : i < calls.length) :
    StopsAt visitor state (calls ++ more) i ↔ StopsAt visitor state calls i := by
  rw [StopsAt, StopsAt, List.getElem?_append_left hi,
    List.take_append_of_le_length (Nat.le_of_lt hi)]

theorem StopsAt.lt_length {i : Nat} (h : StopsAt visitor state calls i) :
    i < calls.length := by
  obtain ⟨call, hcall, -⟩ := h
  exact (List.getElem?_eq_some_iff.mp hcall).1

theorem FirstStop.append {i : Nat} (h : FirstStop visitor state calls i)
    (more : List (Step × Nat)) : FirstStop visitor state (calls ++ more) i := by
  have hi := h.1.lt_length
  constructor
  · exact (stopsAt_append_iff hi).mpr h.1
  · intro j hj
    rw [stopsAt_append_iff (Nat.lt_trans hj hi)]
    exact h.2 j hj

theorem visit_nil (place : Nat) : visit visitor state place [] = (state, none) := by
  rw [visit]
  rfl

theorem visit_of_error {s : List Char} {h : Halt} {place : Nat} (hne : s ≠ [])
    (hstep : readStep s = .error h) : visit visitor state place s = (state, some h) := by
  rw [visit, if_neg (by rwa [List.isEmpty_iff])]
  split
  · rename_i e he
    rw [hstep] at he
    cases he
    rfl
  · rename_i found after hok
    rw [hstep] at hok
    cases hok

theorem visit_of_readStep {s rest : List Char} {step : Step} {place : Nat}
    (hstep : readStep s = .ok (step, rest)) :
    visit visitor state place s =
      if (visitor state step place).2 then ((visitor state step place).1, none)
      else visit visitor (visitor state step place).1 (place + 1) rest := by
  rw [visit, isEmpty_of_readStep hstep, if_neg Bool.false_ne_true]
  split
  · rename_i e he
    rw [hstep] at he
    cases he
  · rename_i found after hok
    rw [hstep] at hok
    cases hok
    rfl

/-- The visitor is handed the steps of the run with their places, up to the first
call at which it asks to stop; the halt is told only if it never does. -/
theorem visit_spec (s : List Char) (place : Nat) (state : σ) :
    (∀ i, FirstStop visitor state ((pull none s).1.zipIdx place) i →
      visit visitor state place s =
        (stateBehind visitor state (((pull none s).1.zipIdx place).take (i + 1)),
          none)) ∧
    ((∀ i, ¬ StopsAt visitor state ((pull none s).1.zipIdx place) i) →
      visit visitor state place s =
        (stateBehind visitor state ((pull none s).1.zipIdx place),
          halt? (pull none s).2)) := by
  induction s using readAll.induct generalizing place state with
  | case1 s hs =>
      obtain rfl := List.isEmpty_iff.mp hs
      rw [pull_nil, visit_nil]
      refine ⟨?_, fun _ => rfl⟩
      rintro i ⟨hstop, -⟩
      exact absurd hstop.lt_length (Nat.not_lt_zero i)
  | case2 s hs h hstep =>
      have hne : s ≠ [] := by rwa [List.isEmpty_iff] at hs
      rw [pull_of_error hne hstep, visit_of_error hne hstep]
      refine ⟨?_, fun _ => rfl⟩
      rintro i ⟨hstop, -⟩
      exact absurd hstop.lt_length (Nat.not_lt_zero i)
  | case3 s hs step rest hstep ih =>
      rw [pull_of_readStep hstep, visit_of_readStep hstep, List.zipIdx_cons]
      cases hask : (visitor state step place).2 with
      | true =>
          have hzero : StopsAt visitor state
              ((step, place) :: (pull none rest).1.zipIdx (place + 1)) 0 :=
            stopsAt_zero_iff.mpr hask
          refine ⟨?_, fun hnever => absurd hzero (hnever 0)⟩
          rintro (_ | i) ⟨-, hbefore⟩
          · rfl
          · exact absurd hzero (hbefore 0 (Nat.zero_lt_succ i))
      | false =>
          obtain ⟨hstop, hnone⟩ := ih (place + 1) (visitor state step place).1
          rw [if_neg Bool.false_ne_true]
          constructor
          · rintro (_ | i) hfirst
            · have hzero := stopsAt_zero_iff.mp hfirst.1
              rw [hask] at hzero
              cases hzero
            · exact hstop i ((firstStop_succ_iff hask).mp hfirst)
          · intro hnever
            exact hnone fun i hi => hnever (i + 1) (stopsAt_succ_iff.mpr hi)

end Visit

/-- The text ends where nothing behind it can belong to its last step, dots
apart. -/
def Closed (text : List Char) : Prop :=
  ∃ c ∈ text.getLast?, c = ']' ∨ c = '.'

theorem not_merges_of_closed {front : List Char} (h : Closed front) (rest : List Char) :
    ¬ Merges front rest := by
  obtain ⟨c, hc, hclosing⟩ := h
  rintro ⟨⟨d, hd, hbody⟩, -⟩
  obtain rfl := Option.mem_unique hc hd
  rcases hclosing with rfl | rfl
  · exact absurd hbody (by decide)
  · exact absurd hbody (by decide)

theorem exists_pull_of_closed {front : List Char} {steps : List Step}
    (hread : readAll front = .ok steps) (h : Closed front) (rest : List Char) :
    ∃ more, (pull none (front ++ rest)).1 = steps ++ more := by
  obtain ⟨k, hdots, hclear⟩ := exists_dots rest
  have hfront : front ≠ [] := by
    rintro rfl
    obtain ⟨c, hc, -⟩ := h
    cases hc
  have hall := readAll_append_dots hread hfront k
  have hapart : Apart (front ++ dots k) (dropDots rest) := by
    refine Or.inr ⟨hclear, ?_⟩
    cases k with
    | zero =>
        rw [dots, List.replicate_zero, List.append_nil]
        exact not_merges_of_closed h _
    | succ k => exact not_merges_append_dots k
  rw [hdots, ← List.append_assoc, pull_append hall hapart]
  exact ⟨_, rfl⟩

theorem parseSteps_eq_of_pull (text : String) :
    parseSteps text =
      match halt? (pull none text.toList).2 with
      | none => .ok (pull none text.toList).1
      | some h => .error (h.toError text) := by
  rw [parseSteps]
  rcases pull_none_cases text.toList with ⟨steps, hpull, hread⟩ | ⟨steps, h, hpull, hread⟩
  · rw [hpull, hread]
    rfl
  · rw [hpull, hread]
    rfl

/-- Reading a text in full, pulling so many steps from it and handing its steps to a visitor
meet the steps of one run in their order, and its halt only behind the last. What stands
behind a closed text is not noticed within its steps. -/
theorem lazy_reading_agrees :
    (∀ text : String,
      let run := pull none text.toList
      (parseSteps text =
        match halt? run.2 with
        | none => .ok run.1
        | some h => .error (h.toError text)) ∧
      (∀ k, (k ≤ run.1.length →
          pull (some k) text.toList = (run.1.take k, .taken)) ∧
        (run.1.length < k → pull (some k) text.toList = run)) ∧
      ∀ (σ : Type) (visitor : σ → Step → Nat → σ × Bool) (state : σ),
        (∀ i, FirstStop visitor state run.1.zipIdx i →
          visit visitor state 0 text.toList =
            (stateBehind visitor state (run.1.zipIdx.take (i + 1)), none)) ∧
        ((∀ i, ¬ StopsAt visitor state run.1.zipIdx i) →
          visit visitor state 0 text.toList =
            (stateBehind visitor state run.1.zipIdx, halt? run.2))) ∧
    ∀ (u : String) (us : List Step), parseSteps u = .ok us → Closed u.toList →
      ∀ w : String,
        (∀ k ≤ us.length,
          pull (some k) u.toList = (us.take k, .taken) ∧
          pull (some k) (u ++ w).toList = (us.take k, .taken)) ∧
        ∀ (σ : Type) (visitor : σ → Step → Nat → σ × Bool) (state : σ) (i : Nat),
          FirstStop visitor state us.zipIdx i →
            visit visitor state 0 u.toList =
              (stateBehind visitor state (us.zipIdx.take (i + 1)), none) ∧
            visit visitor state 0 (u ++ w).toList =
              (stateBehind visitor state (us.zipIdx.take (i + 1)), none) := by
  refine ⟨?_, ?_⟩
  · intro text run
    refine ⟨parseSteps_eq_of_pull text, ?_, fun σ visitor state => visit_spec _ 0 state⟩
    intro k
    rw [pull_some_eq]
    exact ⟨fun hk => if_pos hk, fun hk => if_neg (Nat.not_le_of_lt hk)⟩
  · intro u us hu hclosed w
    have hread := parseSteps_eq_ok_iff.mp hu
    have hsame : pull none u.toList = (us, .exhausted) := readAll_eq_ok_iff.mp hread
    obtain ⟨more, hmore⟩ := exists_pull_of_closed hread hclosed w.toList
    rw [String.toList_append]
    refine ⟨?_, ?_⟩
    · intro k hk
      rw [pull_some_eq, pull_some_eq, hsame, hmore]
      rw [if_pos hk, if_pos (by simp; omega), List.take_append_of_le_length hk]
      exact ⟨rfl, rfl⟩
    · intro σ visitor state i hfirst
      have hi := hfirst.1.lt_length
      have hshort := (visit_spec u.toList 0 state).1 i (by rwa [hsame])
      have hlong := (visit_spec (u.toList ++ w.toList) 0 state).1 i (by
        rw [hmore, List.zipIdx_append]
        exact hfirst.append _)
      rw [hsame] at hshort
      rw [hmore, List.zipIdx_append, List.take_append_of_le_length hi] at hlong
      exact ⟨hshort, hlong⟩

theorem lazy_reading_agrees_before_open_subscript :
    let u := "a['b']."
    let us : List Step := [.key "a", .key "b"]
    let w := ".c["
    let halt : Halt := .flawed .openSubscript ['[']
    let visitor : List (Step × Nat) → Step → Nat → List (Step × Nat) × Bool :=
      fun calls step place => (calls ++ [(step, place)], step = .key "b")
    parseSteps u = .ok us ∧ Closed u.toList ∧ FirstStop visitor [] us.zipIdx 1 ∧
      parseSteps (u ++ w) = .error (halt.toError (u ++ w)) ∧
      pull (some 2) (u ++ w).toList = (us, .taken) ∧
      pull (some 4) (u ++ w).toList = (us ++ [.key "c"], .halted halt) ∧
      visit visitor [] 0 (u ++ w).toList = ([(.key "a", 0), (.key "b", 1)], none) := by
  intro u us w halt visitor
  have hu : parseSteps u = .ok us := by decide +kernel
  have hclosed : Closed u.toList := ⟨'.', by decide +kernel, Or.inr rfl⟩
  have hrun : pull none (u ++ w).toList = (us ++ [.key "c"], .halted halt) := by
    decide +kernel
  have hfirst : FirstStop visitor [] us.zipIdx 1 := by
    refine ⟨⟨(.key "b", 1), rfl, by decide⟩, ?_⟩
    rintro (_ | j) hj ⟨call, hcall, hstop⟩
    · cases hcall
      exact absurd hstop (by decide)
    · omega
  obtain ⟨hwhole, hfront⟩ := lazy_reading_agrees
  obtain ⟨hparse, hpull, -⟩ := hwhole (u ++ w)
  obtain ⟨htake, hvisit⟩ := hfront u us hu hclosed w
  refine ⟨hu, hclosed, hfirst, ?_, (htake 2 (by decide)).2, ?_, (hvisit _ _ _ 1 hfirst).2⟩
  · rw [hparse, hrun]
    rfl
  · rw [(hpull 4).2 (by rw [hrun]; decide), hrun]

end TreePath.Lazy
