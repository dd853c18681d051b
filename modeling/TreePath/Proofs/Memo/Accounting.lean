import TreePath.Path.Basic
import TreePath.Proofs.Memo.Run

namespace TreePath.Memo

section Store

variable {ε α : Type} {read : String → Except ε α} {m : Memo α}

/-- There is room for so many entries. -/
def Fits (bound : Option Int) (count : Nat) : Prop :=
  ∀ n ∈ bound, (count : Int) ≤ n

/-- The new entry comes last. Of the old ones a run of the oldest is gone, the shortest
that leaves room. -/
def Stored (bound : Option Int) (entry : String × α) (old new : List (String × α)) :
    Prop :=
  ∃ gone kept, old = gone ++ kept ∧ new = kept ++ [entry] ∧ Fits bound new.length ∧
    ∀ fewer < gone.length, ¬Fits bound (old.length - fewer + 1)

theorem putLast_of_notMem {entries : List (String × α)} {key : String}
    (h : key ∉ entries.map (·.1)) (a : α) :
    putLast entries key a = entries ++ [(key, a)] := by
  rw [putLast, List.filter_eq_self.mpr]
  intro e he
  refine bne_iff_ne.mpr fun hkey => h ?_
  exact hkey ▸ List.mem_map_of_mem he

theorem stored_shrink {bound : Option Int} (hbound : LegalBound bound)
    (entry : String × α) (old : List (String × α)) :
    Stored bound entry old (shrink bound (old ++ [entry])) := by
  cases bound with
  | none => exact ⟨[], old, rfl, rfl, nofun, nofun⟩
  | some n =>
      have hn : 1 ≤ n := hbound n rfl
      have hlength : (old ++ [entry]).length = old.length + 1 := List.length_append
      have hcut : old.length + 1 - n.toNat ≤ old.length := by omega
      refine ⟨old.take (old.length + 1 - n.toNat), old.drop (old.length + 1 - n.toNat),
        (List.take_append_drop ..).symm, ?_, ?_, ?_⟩
      · rw [shrink, hlength, List.drop_append_of_le_length hcut]
      · rintro _ ⟨⟩
        rw [shrink, List.length_drop, hlength]
        omega
      · intro fewer hfewer hfits
        have hroom : ((old.length - fewer + 1 : Nat) : Int) ≤ n := hfits n rfl
        rw [List.length_take] at hfewer
        omega

theorem length_of_stored {bound : Option Int} {entry : String × α}
    {old new : List (String × α)} (h : Stored bound entry old new) :
    (bound = none → new.length = old.length + 1) ∧
      ∀ n ∈ bound, (new.length : Int) = min (old.length + 1 : Int) n := by
  obtain ⟨gone, kept, rfl, rfl, hfits, hfewest⟩ := h
  simp only [List.length_append, List.length_singleton] at hfits hfewest ⊢
  constructor
  · rintro rfl
    have hgone : ¬0 < gone.length := fun hpos => hfewest 0 hpos nofun
    omega
  · rintro n rfl
    have hroom : ((kept.length + 1 : Nat) : Int) ≤ n := hfits n rfl
    rcases Nat.eq_zero_or_pos gone.length with hgone | hgone
    · omega
    · have hfull : ¬Fits (some n) (gone.length + kept.length - (gone.length - 1) + 1) :=
        hfewest (gone.length - 1) (by omega)
      simp only [Fits, Option.mem_def, Option.some.injEq, forall_eq'] at hfull
      omega

theorem request_eq_fresh_iff (hm : LegalBound m.bound) {key : String} {a : α} :
    (m.request read key).1 = .fresh a ↔ key ∉ m.keys ∧ read key = .ok a := by
  rw [← find?_eq_none_iff]
  rcases request_cases m read key with
    ⟨b, hfind, h⟩ | ⟨e, hfind, hread, h⟩ | ⟨b, hfind, hread, h⟩
  · rw [h, hfind]
    exact ⟨nofun, nofun⟩
  · rw [h, hread]
    exact ⟨nofun, nofun⟩
  · rw [h, hfind, hread, canHold_of_legal hm]
    simp

theorem stored_of_fresh (hm : LegalBound m.bound) {key : String} {a : α}
    (h : (m.request read key).1 = .fresh a) :
    Stored m.bound (key, a) m.entries (m.request read key).2.entries := by
  obtain ⟨hnew, hread⟩ := (request_eq_fresh_iff hm).mp h
  rw [request_of_ok (find?_eq_none_iff.mpr hnew) hread, putLast_of_notMem hnew]
  exact stored_shrink hm (key, a) m.entries

theorem keys_serve_perm (hm : Sound read m) {call : Call} (hclear : call ≠ .clear)
    (hfresh : ∀ a, (m.serve read call).1 ≠ .answer (.fresh a)) :
    (m.serve read call).2.keys.Perm m.keys := by
  cases call with
  | request key =>
      rw [serve] at hfresh ⊢
      rcases request_cases m read key with
        ⟨a, hfind, h⟩ | ⟨e, -, -, h⟩ | ⟨a, -, -, h⟩
      · rw [h]
        dsimp only [keys]
        split
        · have hmem : key ∈ m.entries.map (·.1) :=
            List.mem_map_of_mem (mem_entries_of_find? hfind)
          have hnodup : (m.entries.map (·.1)).Nodup := hm.nodup
          rw [keys_putLast, ← hnodup.erase_eq_filter]
          exact (List.perm_append_singleton _ _).trans (List.perm_cons_erase hmem).symm
        · exact .refl _
      · rw [h]
        exact .refl _
      · rw [h, canHold_of_legal hm.legal] at hfresh
        exact absurd rfl (hfresh a)
  | contains key => exact .refl _
  | size => exact .refl _
  | info => exact .refl _
  | clear => exact absurd rfl hclear
  | setBound bound => exact .refl _

theorem keys_after_perm (hm : Sound read m) {calls : List Call}
    (hcalls : ∀ call ∈ calls, call.Legal)
    (hquiet : ∀ x ∈ exchanges read m calls,
      x.call ≠ .clear ∧ ∀ a, x.reply ≠ .answer (.fresh a)) :
    (m.after read calls).keys.Perm m.keys := by
  induction calls generalizing m with
  | nil => exact .refl _
  | cons call calls ih =>
      rw [List.forall_mem_cons] at hcalls
      rw [exchanges, List.forall_mem_cons] at hquiet
      exact (ih (hm.serve call hcalls.1) hcalls.2 hquiet.2).trans
        (keys_serve_perm hm hquiet.1.1 hquiet.1.2)

end Store

section Counters

variable {ε α : Type} {read : String → Except ε α} {m : Memo α}

/-- The counters of a memo tell of the requests among the exchanges. -/
structure Accounted (m : Memo α) (run : List (Exchange ε α)) : Prop where
  requests : m.hits + m.misses = run.countP (·.call.requests)
  room : m.size + run.countP Exchange.failed ≤ m.misses

theorem length_keys (m : Memo α) : m.keys.length = m.size :=
  List.length_map ..

theorem length_shrink_putLast_le (bound : Option Int) (entries : List (String × α))
    (key : String) (a : α) :
    (shrink bound (putLast entries key a)).length ≤ entries.length + 1 := by
  calc
    (shrink bound (putLast entries key a)).length ≤ (putLast entries key a).length :=
      (shrink_suffix ..).length_le
    _ = (entries.filter fun e => e.1 != key).length + 1 := List.length_append
    _ ≤ entries.length + 1 := Nat.add_le_add_right (List.length_filter_le ..) 1

theorem Accounted.concat {m' : Memo α} {run : List (Exchange ε α)} {x : Exchange ε α}
    (h : Accounted m run)
    (hrequests : m'.hits + m'.misses =
      m.hits + m.misses + if x.call.requests then 1 else 0)
    (hroom : m'.size + (if x.failed then 1 else 0) + m.misses ≤ m.size + m'.misses) :
    Accounted m' (run ++ [x]) where
  requests := by
    rw [List.countP_append, List.countP_singleton, ← h.requests, hrequests]
  room := by
    have := h.room
    rw [List.countP_append, List.countP_singleton]
    omega

theorem size_request_of_held (hm : Sound read m) {key : String} {a : α}
    (h : (m.request read key).1 = .held a) : (m.request read key).2.size = m.size := by
  have hperm : (m.serve read (.request key)).2.keys.Perm m.keys :=
    keys_serve_perm hm nofun (by rw [serve, h]; nofun)
  rw [← length_keys, ← length_keys]
  exact hperm.length_eq

theorem Accounted.serve (hm : Sound read m) {run : List (Exchange ε α)}
    (h : Accounted m run) {call : Call} (hclear : call ≠ .clear) :
    Accounted (m.serve read call).2 (run ++ [⟨call, (m.serve read call).1⟩]) := by
  cases call with
  | request key =>
      rcases request_cases m read key with
        ⟨a, -, hanswer⟩ | ⟨e, -, -, hanswer⟩ | ⟨a, -, -, hanswer⟩
      · have hsize := size_request_of_held hm (congrArg Prod.fst hanswer)
        rw [Memo.serve, hanswer]
        rw [hanswer] at hsize
        refine h.concat (Nat.add_right_comm ..) ?_
        rw [hsize]
        exact Nat.le_refl _
      · rw [Memo.serve, hanswer]
        refine h.concat rfl ?_
        show m.size + 1 + m.misses ≤ m.size + (m.misses + 1)
        omega
      · rw [Memo.serve, hanswer, canHold_of_legal hm.legal]
        refine h.concat rfl ?_
        have hsize := length_shrink_putLast_le m.bound m.entries key a
        show (shrink m.bound (putLast m.entries key a)).length + 0 + m.misses ≤
          m.entries.length + (m.misses + 1)
        omega
  | contains key => exact h.concat rfl (Nat.le_refl _)
  | size => exact h.concat rfl (Nat.le_refl _)
  | info => exact h.concat rfl (Nat.le_refl _)
  | clear => exact absurd rfl hclear
  | setBound bound => exact h.concat rfl (Nat.le_refl _)

theorem accounted_after {bound : Option Int} {fresh : Memo α}
    (hfresh : create bound = .ok fresh) {calls : List Call}
    (hcalls : ∀ call ∈ calls, call.Legal) :
    Accounted (fresh.after read calls) (recent (exchanges read fresh calls)) := by
  induction calls using List.reverseRecOn with
  | nil =>
      obtain ⟨-, rfl⟩ := create_eq_ok_iff.mp hfresh
      exact ⟨rfl, Nat.le_refl 0⟩
  | append_singleton calls call ih =>
      rw [List.forall_mem_append] at hcalls
      have hsound : Sound read (fresh.after read calls) :=
        Reached.sound ⟨bound, fresh, calls, hfresh, hcalls.1, rfl⟩
      rw [after_concat, exchanges_concat]
      by_cases hclear : call = .clear
      · rw [recent_concat_clear _ hclear, hclear]
        exact ⟨rfl, Nat.le_refl 0⟩
      · rw [recent_concat _ hclear]
        exact (ih hcalls.1).serve hsound hclear

end Counters

/-- Keys are distinct, and the counters tell of the requests since the last clear. A text
that is read anew comes last, as few of the oldest go as leave room for it, and no other
call but a clear changes which texts are held. -/
theorem entries_and_counters_obey_law {bound : Option Int} {fresh : Memo (List Step)}
    (hfresh : create bound = .ok fresh) {calls : List Call}
    (hcalls : ∀ call ∈ calls, call.Legal) :
    let m := fresh.after parseSteps calls
    let run := recent (exchanges parseSteps fresh calls)
    m.keys.Nodup ∧
      m.hits + m.misses = run.countP (·.call.requests) ∧
      m.size + run.countP Exchange.failed ≤ m.misses ∧
      (∀ text steps, (m.request parseSteps text).1 = .fresh steps ↔
        text ∉ m.keys ∧ parseSteps text = .ok steps) ∧
      (∀ text steps, (m.request parseSteps text).1 = .fresh steps →
        let m' := (m.request parseSteps text).2
        Stored m.bound (text, steps) m.entries m'.entries ∧
          (m.bound = none → m'.size = m.size + 1) ∧
          ∀ n ∈ m.bound, (m'.size : Int) = min (m.size + 1 : Int) n) ∧
      ∀ more : List Call, (∀ call ∈ more, call.Legal) →
        (∀ x ∈ exchanges parseSteps m more,
          x.call ≠ .clear ∧ ∀ steps, x.reply ≠ .answer (.fresh steps)) →
        (m.after parseSteps more).keys.Perm m.keys := by
  intro m run
  have hsound : Sound parseSteps m :=
    Reached.sound ⟨bound, fresh, calls, hfresh, hcalls, rfl⟩
  obtain ⟨hrequests, hroom⟩ : Accounted m run := accounted_after hfresh hcalls
  refine ⟨hsound.nodup, hrequests, hroom, fun text steps => request_eq_fresh_iff hsound.legal,
    ?_, fun more => keys_after_perm hsound⟩
  intro text steps hanswer m'
  have hstored := stored_of_fresh hsound.legal hanswer
  exact ⟨hstored, length_of_stored hstored⟩

theorem entries_and_counters_obey_law_under_lowered_bound :
    let calls : List Call :=
      [.request "x", .clear, .request "a", .request "b", .request "[", .request "c",
        .request "a", .setBound (some 2)]
    let m : Memo (List Step) := (ofBound none).after parseSteps calls
    let more : List Call := [.request "b", .info]
    create none = .ok (ofBound none : Memo (List Step)) ∧
      (∀ call ∈ calls, call.Legal) ∧ m.hits + m.misses = 5 ∧ m.size + 1 ≤ m.misses ∧
      m.size = 3 ∧ (∀ call ∈ more, call.Legal) ∧
      (m.after parseSteps more).keys.Perm m.keys ∧
      (m.request parseSteps "d").1 = .fresh [.key "d"] ∧
      ((m.request parseSteps "d").2.size : Int) = 2 := by
  intro calls m more
  have hfresh : create none = .ok (ofBound none : Memo (List Step)) := rfl
  have hcalls : ∀ call ∈ calls, call.Legal := by
    simp [calls, Call.Legal, LegalBound]
  have hmore : ∀ call ∈ more, call.Legal := by
    simp [more, Call.Legal]
  obtain ⟨-, hrequests, hroom, hanswer, hstored, hquiet⟩ :=
    entries_and_counters_obey_law hfresh hcalls
  have hd : (m.request parseSteps "d").1 = .fresh [.key "d"] :=
    (hanswer "d" _).mpr ⟨by decide +kernel, by decide +kernel⟩
  have hb : ∀ steps, Reply.answer (m.request parseSteps "b").1 ≠ .answer (.fresh steps) := by
    intro steps h
    injection h with h
    exact ((hanswer "b" steps).mp h).1 (by decide +kernel)
  have hfailed : (recent (exchanges parseSteps (ofBound none) calls)).countP
      Exchange.failed = 1 := by
    decide +kernel
  have hsize : m.size = 3 := by decide +kernel
  have hgrown := (hstored "d" _ hd).2.2 2 (by decide +kernel)
  refine ⟨hfresh, hcalls, hrequests.trans (by decide +kernel), ?_, hsize, hmore, ?_, hd, ?_⟩
  · rw [hfailed] at hroom
    exact hroom
  · refine hquiet more hmore (List.forall_mem_cons.mpr
      ⟨⟨?_, hb⟩, List.forall_mem_singleton.mpr ⟨?_, ?_⟩⟩)
    · rintro ⟨⟩
    · rintro ⟨⟩
    · rintro steps ⟨⟩
  · exact hgrown.trans (by decide +kernel)

end TreePath.Memo
