import Mathlib.Data.List.Dedup
import Mathlib.Data.List.DropRight
import TreePath.Path.Basic
import TreePath.Proofs.Memo.Run

namespace TreePath.Memo

section Lists

variable {α : Type}

theorem rtake_of_length_le {l : List α} {n : Nat} (h : l.length ≤ n) :
    l.rtake n = l := by
  rw [List.rtake, Nat.sub_eq_zero_of_le h, List.drop_zero]

theorem length_rtake_le (l : List α) (n : Nat) : (l.rtake n).length ≤ n := by
  rw [List.rtake, List.length_drop]
  omega

theorem rtake_append_of_le_length (l r : List α) {n : Nat} (h : n ≤ r.length) :
    (l ++ r).rtake n = r.rtake n := by
  rw [List.rtake, List.rtake, List.length_append,
    show l.length + r.length - n = l.length + (r.length - n) by omega,
    List.drop_append, List.drop_eq_nil_of_le (Nat.le_add_right _ _),
    Nat.add_sub_cancel_left, List.nil_append]

variable [DecidableEq α]

theorem dedup_concat (l : List α) (a : α) :
    (l ++ [a]).dedup = l.dedup.filter (· != a) ++ [a] := by
  induction l with
  | nil => rfl
  | cons b l ih =>
      rw [List.cons_append]
      by_cases hmem : b ∈ l
      · rw [List.dedup_cons_of_mem (List.mem_append_left _ hmem),
          List.dedup_cons_of_mem hmem, ih]
      · rw [List.dedup_cons_of_notMem hmem]
        by_cases hba : b = a
        · subst hba
          rw [List.dedup_cons_of_mem (List.mem_append_right _ List.mem_cons_self),
            ih, List.filter_cons_of_neg (by simp)]
        · have hout : b ∉ l ++ [a] := by
            simp [hmem, hba]
          rw [List.dedup_cons_of_notMem hout, ih,
            List.filter_cons_of_pos (by simpa using hba), List.cons_append]

theorem eraseDups_concat (l : List α) (a : α) :
    (l ++ [a]).eraseDups =
      if a ∈ l then l.eraseDups else l.eraseDups ++ [a] := by
  rw [List.eraseDups_append, List.removeAll, List.filter_singleton]
  by_cases hmem : a ∈ l
  · rw [if_pos hmem]
    simp [hmem]
  · rw [if_neg hmem]
    simp [hmem, List.eraseDups_cons]

theorem filter_ne_of_notMem {l : List α} {a : α} (h : a ∉ l) :
    l.filter (· != a) = l := by
  rw [List.filter_eq_self]
  intro b hb
  exact bne_iff_ne.mpr fun heq => h (heq ▸ hb)

theorem length_le_length_filter_ne {l : List α} (h : l.Nodup) (a : α) :
    l.length ≤ (l.filter (· != a)).length + 1 := by
  rw [← h.erase_eq_filter, List.length_erase]
  split <;> omega

/-- Moving a text to the end and keeping the last `n` commute: at most one of
the last `n` texts goes away by being moved. -/
theorem rtake_filter_rtake {l : List α} (h : l.Nodup) (a : α) {n : Nat}
    (hn : 0 < n) :
    ((l.rtake n).filter (· != a) ++ [a]).rtake n =
      (l.filter (· != a) ++ [a]).rtake n := by
  obtain ⟨k, rfl⟩ := Nat.exists_eq_succ_of_ne_zero hn.ne'
  rw [Nat.succ_eq_add_one, List.rtake_concat_succ, List.rtake_concat_succ]
  congr 1
  rcases Nat.lt_or_ge l.length (k + 1) with hlt | hle
  · rw [rtake_of_length_le hlt.le]
  · have hsplit : l.take (l.length - (k + 1)) ++ l.rtake (k + 1) = l :=
      List.take_append_drop _ _
    have hnodup : (l.rtake (k + 1)).Nodup := h.sublist (List.drop_sublist _ _)
    have hlength : (l.rtake (k + 1)).length = k + 1 := by
      rw [List.rtake, List.length_drop]
      omega
    have hmany : k ≤ ((l.rtake (k + 1)).filter (· != a)).length := by
      have := length_le_length_filter_ne hnodup a
      omega
    conv_rhs => rw [← hsplit, List.filter_append]
    rw [rtake_append_of_le_length _ _ hmany]

theorem exists_rtakeWhile_split {l : List α} {a : α} (h : a ∈ l) :
    ∃ older, l = older ++ a :: l.rtakeWhile (· != a) := by
  induction l using List.reverseRecOn with
  | nil => cases h
  | append_singleton l b ih =>
      by_cases hba : b = a
      · subst hba
        refine ⟨l, ?_⟩
        rw [List.rtakeWhile_concat_neg _ _ _ (by simp)]
      · have hmem : a ∈ l := by
          rcases List.mem_append.mp h with h | h
          · exact h
          · exact absurd (List.mem_singleton.mp h).symm hba
        obtain ⟨older, holder⟩ := ih hmem
        refine ⟨older, ?_⟩
        rw [List.rtakeWhile_concat_pos _ _ _ (by simpa using hba)]
        conv_lhs => rw [holder]
        simp

theorem exists_dedup_split {l : List α} {a : α} (h : a ∈ l) :
    ∃ older, l.dedup = older ++ a :: (l.rtakeWhile (· != a)).dedup := by
  obtain ⟨before, hsplit⟩ := exists_rtakeWhile_split h
  have hlast : a ∉ l.rtakeWhile (· != a) := by
    intro hmem
    simpa using List.mem_rtakeWhile_imp hmem
  obtain ⟨older, holder⟩ := List.suffix_union_right before
    (a :: (l.rtakeWhile (· != a)).dedup)
  refine ⟨older, ?_⟩
  conv_lhs => rw [hsplit]
  rw [List.dedup_append, List.dedup_cons_of_notMem hlast, holder]

theorem mem_rtake_dedup_iff {l : List α} {a : α} {n : Nat} :
    a ∈ l.dedup.rtake n ↔ a ∈ l ∧ (l.rtakeWhile (· != a)).dedup.length < n := by
  constructor
  · intro h
    have hmem : a ∈ l := List.mem_dedup.mp (List.mem_of_mem_drop h)
    refine ⟨hmem, ?_⟩
    by_contra hmany
    obtain ⟨older, holder⟩ := exists_dedup_split hmem
    rw [holder, List.append_cons, rtake_append_of_le_length _ _ (not_lt.mp hmany)] at h
    have hlater := List.mem_dedup.mp (List.mem_of_mem_drop h)
    simpa using List.mem_rtakeWhile_imp hlater
  · rintro ⟨hmem, hfew⟩
    obtain ⟨older, holder⟩ := exists_dedup_split hmem
    rw [holder, List.rtake, List.length_append, List.length_cons, List.drop_append,
      show older.length + ((l.rtakeWhile (· != a)).dedup.length + 1) - n -
        older.length = 0 by omega]
    exact List.mem_append_right _ List.mem_cons_self

end Lists

section History

variable {α ε : Type}

/-- The calls behind the last clear. -/
def sinceClear (calls : List Call) : List Call :=
  calls.rtakeWhile (· != .clear)

def readableRequest? (read : String → Except ε α) : Call → Option String
  | .request key => if (read key).isOk then some key else none
  | _ => none

/-- The readable texts that were requested since the last clear, in order. -/
def history (read : String → Except ε α) (calls : List Call) : List String :=
  (sinceClear calls).filterMap (readableRequest? read)

theorem history_concat_clear (read : String → Except ε α) (calls : List Call) :
    history read (calls ++ [.clear]) = [] := by
  rw [history, sinceClear, List.rtakeWhile_concat_neg _ _ _ (by simp)]
  rfl

theorem history_concat (read : String → Except ε α) (calls : List Call)
    {call : Call} (h : call ≠ .clear) :
    history read (calls ++ [call]) =
      history read calls ++ (readableRequest? read call).toList := by
  rw [history, sinceClear, List.rtakeWhile_concat_pos _ _ _ (by simpa using h),
    List.filterMap_append]
  rw [← sinceClear, ← history]
  cases hcall : readableRequest? read call <;> simp [hcall]

theorem readableRequest?_of_ok {read : String → Except ε α} {key : String} {a : α}
    (h : read key = .ok a) : readableRequest? read (.request key) = some key := by
  rw [readableRequest?, h]
  rfl

theorem readableRequest?_of_error {read : String → Except ε α} {key : String}
    {e : ε} (h : read key = .error e) :
    readableRequest? read (.request key) = none := by
  rw [readableRequest?, h]
  rfl

theorem bound_serve (read : String → Except ε α) (m : Memo α) {call : Call}
    (h : ∀ bound, call ≠ .setBound bound) : (m.serve read call).2.bound = m.bound := by
  cases call with
  | request key => exact bound_request m read key
  | contains key => rfl
  | size => rfl
  | info => rfl
  | clear => rfl
  | setBound bound => exact absurd rfl (h bound)

theorem find?_eq_none_of_error {read : String → Except ε α} {m : Memo α}
    (hm : Sound read m) {key : String} {e : ε} (h : read key = .error e) :
    m.find? key = none := by
  cases hfind : m.find? key with
  | none => rfl
  | some a =>
      have hread := hm.faithful (key, a) (mem_entries_of_find? hfind)
      rw [h] at hread
      cases hread

theorem keys_request_of_error {read : String → Except ε α} {m : Memo α}
    (hm : Sound read m) {key : String} {e : ε} (h : read key = .error e) :
    (m.request read key).2.keys = m.keys := by
  rw [request_of_error (find?_eq_none_of_error hm h) h]
  rfl

theorem keys_request_of_bounded {read : String → Except ε α} {m : Memo α}
    (hm : Sound read m) {n : Int} (hbound : m.bound = some n)
    (hsize : m.keys.length ≤ n.toNat) {key : String} {a : α}
    (h : read key = .ok a) :
    (m.request read key).2.keys =
      (m.keys.filter (· != key) ++ [key]).rtake n.toNat := by
  cases hfind : m.find? key with
  | some b =>
      have hmem : key ∈ m.keys :=
        mem_keys_iff.mpr ⟨b, mem_entries_of_find? hfind⟩
      have hfilter := hm.nodup.erase_eq_filter key
      have hlength : (m.keys.filter (· != key) ++ [key]).length ≤ n.toNat := by
        rw [← hfilter, List.length_append, List.length_erase_of_mem hmem,
          List.length_singleton]
        have := List.length_pos_of_mem hmem
        omega
      rw [request_of_find? hfind, rtake_of_length_le hlength]
      simp only [hbound, Option.isSome_some, ↓reduceIte, keys, keys_putLast]
  | none =>
      rw [request_of_ok hfind h]
      simp only [hbound, keys, keys_shrink, keys_putLast]

theorem keys_request_of_unbounded {read : String → Except ε α} {m : Memo α}
    (hbound : m.bound = none) {key : String} {a : α} (h : read key = .ok a) :
    (m.request read key).2.keys =
      if key ∈ m.keys then m.keys else m.keys ++ [key] := by
  cases hfind : m.find? key with
  | some b =>
      have hmem : key ∈ m.keys :=
        mem_keys_iff.mpr ⟨b, mem_entries_of_find? hfind⟩
      rw [request_of_find? hfind, if_pos hmem]
      simp only [hbound, Option.isSome_none, Bool.false_eq_true, ↓reduceIte, keys]
  | none =>
      have hout : key ∉ m.keys := find?_eq_none_iff.mp hfind
      rw [request_of_ok hfind h, if_neg hout]
      simp only [hbound, keys, shrink, keys_putLast]
      rw [← keys, filter_ne_of_notMem hout]

theorem bound_after {read : String → Except ε α} {m : Memo α} {calls : List Call}
    (h : ∀ bound, Call.setBound bound ∉ calls) :
    (m.after read calls).bound = m.bound := by
  induction calls using List.reverseRecOn with
  | nil => rfl
  | append_singleton calls call ih =>
      rw [after_concat, bound_serve]
      · exact ih fun bound hmem => h bound (List.mem_append_left _ hmem)
      · rintro bound rfl
        exact h bound (List.mem_append_right _ List.mem_cons_self)

theorem reached_after {read : String → Except ε α} {bound : Option Int}
    {fresh : Memo α} {calls : List Call} (hfresh : create bound = .ok fresh)
    (h : ∀ bound, Call.setBound bound ∉ calls) :
    Reached read (fresh.after read calls) := by
  refine ⟨bound, fresh, calls, hfresh, ?_, rfl⟩
  intro call hcall
  cases call with
  | setBound bound => exact absurd hcall (h bound)
  | _ => trivial

theorem serve_cases {read : String → Except ε α} {m : Memo α} (hm : Sound read m)
    (calls : List Call) {call : Call} (h : ∀ bound, call ≠ .setBound bound) :
    call = .clear ∨
    (∃ key a, call = .request key ∧ read key = .ok a ∧
      history read (calls ++ [call]) = history read calls ++ [key]) ∨
    (history read (calls ++ [call]) = history read calls ∧
      (m.serve read call).2.keys = m.keys) := by
  by_cases hclear : call = .clear
  · exact Or.inl hclear
  refine Or.inr ?_
  rw [history_concat read calls hclear]
  cases call with
  | request key =>
      cases hread : read key with
      | error e =>
          rw [readableRequest?_of_error hread]
          exact Or.inr ⟨List.append_nil _, keys_request_of_error hm hread⟩
      | ok a =>
          rw [readableRequest?_of_ok hread]
          exact Or.inl ⟨key, a, rfl, hread, rfl⟩
  | clear => exact absurd rfl hclear
  | setBound bound => exact absurd rfl (h bound)
  | contains key => exact Or.inr ⟨List.append_nil _, rfl⟩
  | size => exact Or.inr ⟨List.append_nil _, rfl⟩
  | info => exact Or.inr ⟨List.append_nil _, rfl⟩

/-- A relation between history and keys that holds of nothing and is kept by
requests of readable texts holds behind every run that leaves the bound alone. -/
theorem history_keys_induction {read : String → Except ε α} {bound : Option Int}
    {fresh : Memo α} (hfresh : create bound = .ok fresh)
    {P : List String → List String → Prop} (hnil : P [] [])
    (hrequest : ∀ (m : Memo α) (texts : List String) (key : String) (a : α),
      Sound read m → m.bound = bound → read key = .ok a → P texts m.keys →
        P (texts ++ [key]) (m.request read key).2.keys)
    {calls : List Call} (h : ∀ bound, Call.setBound bound ∉ calls) :
    P (history read calls) (fresh.after read calls).keys := by
  obtain ⟨-, rfl⟩ := create_eq_ok_iff.mp hfresh
  induction calls using List.reverseRecOn with
  | nil => exact hnil
  | append_singleton calls call ih =>
      have hcalls : ∀ bound, Call.setBound bound ∉ calls :=
        fun bound hmem => h bound (List.mem_append_left _ hmem)
      have hcall : ∀ bound, call ≠ .setBound bound := by
        rintro bound rfl
        exact h bound (List.mem_append_right _ List.mem_cons_self)
      have hsound : Sound read ((ofBound bound : Memo α).after read calls) :=
        (reached_after hfresh hcalls).sound
      rw [after_concat]
      rcases serve_cases hsound calls hcall with
        rfl | ⟨key, a, rfl, hread, hhistory⟩ | ⟨hhistory, hidle⟩
      · rw [history_concat_clear]
        exact hnil
      · rw [hhistory]
        exact hrequest _ _ key a hsound (bound_after hcalls) hread (ih hcalls)
      · rw [hhistory, hidle]
        exact ih hcalls

theorem keys_after_of_bounded {read : String → Except ε α} {n : Int}
    {fresh : Memo α} (hfresh : create (some n) = .ok fresh) {calls : List Call}
    (h : ∀ bound, Call.setBound bound ∉ calls) :
    (fresh.after read calls).keys = (history read calls).dedup.rtake n.toNat := by
  have hn : 0 < n.toNat := by
    have hlegal : 1 ≤ n := (create_eq_ok_iff.mp hfresh).1 n rfl
    omega
  refine history_keys_induction hfresh
    (P := fun texts keys => keys = texts.dedup.rtake n.toNat)
    (List.rtake_nil _).symm ?_ h
  intro m texts key a hsound hbound hread hkeys
  have hsize : m.keys.length ≤ n.toNat := by
    rw [hkeys]
    exact length_rtake_le _ _
  calc
    (m.request read key).2.keys =
        (m.keys.filter (· != key) ++ [key]).rtake n.toNat :=
      keys_request_of_bounded hsound hbound hsize hread
    _ = (texts.dedup.filter (· != key) ++ [key]).rtake n.toNat := by
      rw [hkeys, rtake_filter_rtake (List.nodup_dedup _) key hn]
    _ = (texts ++ [key]).dedup.rtake n.toNat := by rw [dedup_concat]

theorem keys_after_of_unbounded {read : String → Except ε α} {fresh : Memo α}
    (hfresh : create none = .ok fresh) {calls : List Call}
    (h : ∀ bound, Call.setBound bound ∉ calls) :
    (fresh.after read calls).keys = (history read calls).eraseDups := by
  refine history_keys_induction hfresh
    (P := fun texts keys => keys = texts.eraseDups) rfl ?_ h
  intro m texts key a _ hbound hread hkeys
  rw [keys_request_of_unbounded hbound hread, hkeys, eraseDups_concat]
  simp only [List.mem_eraseDups]

theorem mem_keys_after_of_unbounded {read : String → Except ε α}
    {fresh : Memo α} (hfresh : create none = .ok fresh) {calls : List Call}
    (h : ∀ bound, Call.setBound bound ∉ calls) (text : String) :
    text ∈ (fresh.after read calls).keys ↔ text ∈ history read calls := by
  rw [keys_after_of_unbounded hfresh h, List.mem_eraseDups]

theorem counts_request (m : Memo α) (read : String → Except ε α) (key : String) :
    if key ∈ m.keys then
      (m.request read key).2.hits = m.hits + 1 ∧
        (m.request read key).2.misses = m.misses
    else
      (m.request read key).2.hits = m.hits ∧
        (m.request read key).2.misses = m.misses + 1 := by
  rcases request_cases m read key with
    ⟨a, hfind, hrequest⟩ | ⟨e, hfind, -, hrequest⟩ | ⟨a, hfind, -, hrequest⟩
  · rw [if_pos (mem_keys_iff.mpr ⟨a, mem_entries_of_find? hfind⟩), hrequest]
    exact ⟨rfl, rfl⟩
  · rw [if_neg (find?_eq_none_iff.mp hfind), hrequest]
    exact ⟨rfl, rfl⟩
  · rw [if_neg (find?_eq_none_iff.mp hfind), hrequest]
    exact ⟨rfl, rfl⟩

end History

/-- A bounded memo holds the texts requested last, oldest first, and an unbounded one holds
all. So a request is a hit exactly if fewer others than there is room for came after the
last request of its text. -/
theorem memo_is_least_recently_used {n : Int} {bounded unbounded : Memo (List Step)}
    (hbounded : create (some n) = .ok bounded)
    (hunbounded : create none = .ok unbounded) {calls : List Call}
    (h : ∀ bound, Call.setBound bound ∉ calls) :
    let requested := history parseSteps calls
    let m := bounded.after parseSteps calls
    m.keys = requested.dedup.rtake n.toNat ∧
      (∀ text,
        let r := (m.request parseSteps text).2
        if text ∈ requested ∧
            ((requested.rtakeWhile (· != text)).dedup.length : Int) < n then
          r.hits = m.hits + 1 ∧ r.misses = m.misses
        else r.hits = m.hits ∧ r.misses = m.misses + 1) ∧
      ∀ text, text ∈ (unbounded.after parseSteps calls).keys ↔ text ∈ requested := by
  intro requested m
  have hkeys : m.keys = requested.dedup.rtake n.toNat :=
    keys_after_of_bounded hbounded h
  refine ⟨hkeys, ?_, mem_keys_after_of_unbounded hunbounded h⟩
  intro text r
  have hheld : text ∈ m.keys ↔ text ∈ requested ∧
      ((requested.rtakeWhile (· != text)).dedup.length : Int) < n := by
    rw [hkeys, mem_rtake_dedup_iff, Int.lt_toNat]
  have hcounts := counts_request m parseSteps text
  simp only [hheld] at hcounts
  exact hcounts

theorem memo_of_two_keeps_last_two :
    let calls : List Call :=
      [.request "x", .clear, .request "a", .request "b", .request "a", .request "[",
        .contains "b", .request "c", .info]
    create (some 2) = .ok (ofBound (some 2) : Memo (List Step)) ∧
      (∀ bound, Call.setBound bound ∉ calls) ∧
      ((ofBound (some 2)).after parseSteps calls).keys = ["a", "c"] ∧
      "b" ∈ ((ofBound none).after parseSteps calls).keys := by
  intro calls
  have hbounded : create (some 2) = .ok (ofBound (some 2) : Memo (List Step)) := rfl
  have hunbounded : create none = .ok (ofBound none : Memo (List Step)) := rfl
  have hcalls : ∀ bound, Call.setBound bound ∉ calls := by
    simp [calls]
  obtain ⟨hkeys, -, hmem⟩ :=
    memo_is_least_recently_used hbounded hunbounded hcalls
  exact ⟨hbounded, hcalls, hkeys.trans (by decide +kernel),
    (hmem "b").mpr (by decide +kernel)⟩

end TreePath.Memo
