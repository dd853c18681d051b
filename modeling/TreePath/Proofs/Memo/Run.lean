import TreePath.Proofs.Memo.Request

namespace TreePath

namespace Answer

variable {ε α : Type}

/-- What the caller is handed: a result or the error of reading. There is
neither where a bound below zero was to be met. -/
def result : Answer ε α → Option (Except ε α)
  | held a => some (.ok a)
  | fresh a => some (.ok a)
  | unkept _ => none
  | failed e => some (.error e)

/-- The caller is handed nothing but an error. -/
def raised : Answer ε α → Bool
  | held _ => false
  | fresh _ => false
  | unkept _ => true
  | failed _ => true

end Answer

namespace Memo

variable {ε α : Type}

inductive Call where
  | request (key : String)
  | contains (key : String)
  | size
  | info
  | clear
  | setBound (bound : Option Int)
deriving DecidableEq

/-- What a call hands out. -/
inductive Reply (ε α : Type) where
  | answer (a : Answer ε α)
  | found (b : Bool)
  | counted (n : Nat)
  | informed (i : MemoInfo)
  | done

def serve (read : String → Except ε α) (m : Memo α) : Call → Reply ε α × Memo α
  | .request key => (.answer (m.request read key).1, (m.request read key).2)
  | .contains key => (.found (m.contains key), m)
  | .size => (.counted m.size, m)
  | .info => (.informed m.info, m)
  | .clear => (.done, m.clear)
  | .setBound bound => (.done, m.setBound bound)

/-- The memo behind a run of calls. -/
def after (read : String → Except ε α) (m : Memo α) (calls : List Call) : Memo α :=
  calls.foldl (fun m call => (m.serve read call).2) m

/-- A call and what it handed out. -/
structure Exchange (ε α : Type) where
  call : Call
  reply : Reply ε α

/-- The exchanges of a run of calls. -/
def exchanges (read : String → Except ε α) (m : Memo α) :
    List Call → List (Exchange ε α)
  | [] => []
  | call :: calls =>
    ⟨call, (m.serve read call).1⟩ :: exchanges read (m.serve read call).2 calls

/-- The exchanges behind the last clear. -/
def recent (run : List (Exchange ε α)) : List (Exchange ε α) :=
  run.rtakeWhile (·.call != .clear)

def Call.requests : Call → Bool
  | .request _ => true
  | _ => false

/-- The call looks at the memo and does nothing to it. -/
def Call.observes : Call → Bool
  | .contains _ => true
  | .size => true
  | .info => true
  | _ => false

/-- A request that handed out nothing but an error. -/
def Exchange.failed (x : Exchange ε α) : Bool :=
  match x.reply with
  | .answer a => a.raised
  | _ => false

/-- There is room for one entry. -/
def LegalBound (bound : Option Int) : Prop :=
  ∀ n ∈ bound, 1 ≤ n

def Call.Legal : Call → Prop
  | .setBound bound => LegalBound bound
  | _ => True

/-- The memo came about by calls on a new one. -/
def Reached (read : String → Except ε α) (m : Memo α) : Prop :=
  ∃ bound fresh calls, create bound = .ok fresh ∧
    (∀ call ∈ calls, Call.Legal call) ∧ fresh.after read calls = m

structure Sound (read : String → Except ε α) (m : Memo α) : Prop where
  nodup : m.keys.Nodup
  faithful : ∀ e ∈ m.entries, read e.1 = .ok e.2
  legal : LegalBound m.bound

theorem legalBound_none : LegalBound none := by
  intro n hn
  cases hn

theorem create_eq_ok_iff {bound : Option Int} {m : Memo α} :
    create bound = .ok m ↔ LegalBound bound ∧ m = ofBound bound := by
  cases bound with
  | none =>
      constructor
      · intro h
        cases h
        exact ⟨legalBound_none, rfl⟩
      · rintro ⟨-, rfl⟩
        rfl
  | some n =>
      simp only [create, LegalBound, Option.mem_def, Option.some.injEq,
        forall_eq']
      split
      · rename_i hn
        constructor
        · intro h
          cases h
        · rintro ⟨hle, -⟩
          omega
      · rename_i hn
        constructor
        · intro h
          cases h
          exact ⟨by omega, rfl⟩
        · rintro ⟨-, rfl⟩
          rfl

theorem after_append (read : String → Except ε α) (m : Memo α)
    (first second : List Call) :
    m.after read (first ++ second) = (m.after read first).after read second :=
  List.foldl_append

theorem after_concat (read : String → Except ε α) (m : Memo α)
    (calls : List Call) (call : Call) :
    m.after read (calls ++ [call]) = ((m.after read calls).serve read call).2 := by
  rw [after_append]
  rfl

theorem exchanges_append (read : String → Except ε α) (m : Memo α)
    (first second : List Call) :
    exchanges read m (first ++ second) =
      exchanges read m first ++ exchanges read (m.after read first) second := by
  induction first generalizing m with
  | nil => rfl
  | cons call first ih =>
      rw [List.cons_append, exchanges, exchanges, List.cons_append, ih]
      rfl

theorem exchanges_concat (read : String → Except ε α) (m : Memo α)
    (calls : List Call) (call : Call) :
    exchanges read m (calls ++ [call]) =
      exchanges read m calls ++ [⟨call, ((m.after read calls).serve read call).1⟩] :=
  exchanges_append read m calls [call]

theorem recent_concat_clear (run : List (Exchange ε α)) {x : Exchange ε α}
    (h : x.call = .clear) : recent (run ++ [x]) = [] := by
  rw [recent, List.rtakeWhile_concat_neg]
  simp [h]

theorem recent_concat (run : List (Exchange ε α)) {x : Exchange ε α}
    (h : x.call ≠ .clear) : recent (run ++ [x]) = recent run ++ [x] := by
  rw [recent, List.rtakeWhile_concat_pos, ← recent]
  simpa using h

theorem reached_ofBound (read : String → Except ε α) {bound : Option Int}
    (h : LegalBound bound) : Reached read (ofBound bound) :=
  ⟨bound, ofBound bound, [], create_eq_ok_iff.mpr ⟨h, rfl⟩, by simp, rfl⟩

theorem Reached.serve {read : String → Except ε α} {m : Memo α}
    (h : Reached read m) (call : Call) (hcall : call.Legal) :
    Reached read (m.serve read call).2 := by
  obtain ⟨bound, fresh, calls, hfresh, hcalls, rfl⟩ := h
  refine ⟨bound, fresh, calls ++ [call], hfresh, ?_, after_concat ..⟩
  intro c hc
  rcases List.mem_append.mp hc with hc | hc
  · exact hcalls c hc
  · rw [List.mem_singleton.mp hc]
    exact hcall

/-- What holds of new memos and is kept by every call holds of every memo. -/
theorem Reached.invariant {read : String → Except ε α} {P : Memo α → Prop}
    (hfresh : ∀ bound, LegalBound bound → P (ofBound bound))
    (hserve : ∀ m call, P m → call.Legal → P (m.serve read call).2)
    {m : Memo α} (h : Reached read m) : P m := by
  obtain ⟨bound, fresh, calls, hcreate, hcalls, rfl⟩ := h
  obtain ⟨hbound, rfl⟩ := create_eq_ok_iff.mp hcreate
  induction calls using List.reverseRecOn with
  | nil => exact hfresh bound hbound
  | append_singleton calls call ih =>
      rw [after_concat]
      refine hserve _ call (ih fun c hc => hcalls c ?_) (hcalls call ?_)
      · exact List.mem_append_left _ hc
      · exact List.mem_append_right _ (List.mem_singleton_self call)

theorem Sound.ofBound (read : String → Except ε α) {bound : Option Int}
    (h : LegalBound bound) : Sound read (ofBound bound) where
  nodup := List.nodup_nil
  faithful := by
    intro e he
    cases he
  legal := h

theorem Sound.keep {read : String → Except ε α} {m : Memo α} (h : Sound read m)
    {key : String} {a : α} (hread : read key = .ok a)
    {entries : List (String × α)}
    (hkept : entries.Sublist (putLast m.entries key a))
    (hits misses : Nat) : Sound read ⟨entries, hits, misses, m.bound⟩ where
  nodup := (nodup_putLast key a h.nodup).sublist (hkept.map _)
  faithful := by
    intro e he
    rcases mem_putLast (hkept.subset he) with he | rfl
    · exact h.faithful e he
    · exact hread
  legal := h.legal

theorem Sound.request {read : String → Except ε α} {m : Memo α}
    (h : Sound read m) (key : String) : Sound read (m.request read key).2 := by
  rcases request_cases m read key with
    ⟨a, hfind, hrequest⟩ | ⟨e, -, -, hrequest⟩ | ⟨a, -, hread, hrequest⟩
  · have hread : read key = .ok a :=
      h.faithful (key, a) (mem_entries_of_find? hfind)
    rw [hrequest]
    dsimp only
    split
    · exact h.keep hread (List.Sublist.refl _) _ _
    · exact ⟨h.nodup, h.faithful, h.legal⟩
  · rw [hrequest]
    exact ⟨h.nodup, h.faithful, h.legal⟩
  · rw [hrequest]
    exact h.keep hread (shrink_suffix ..).sublist _ _

theorem Sound.serve {read : String → Except ε α} {m : Memo α}
    (h : Sound read m) (call : Call) (hcall : call.Legal) :
    Sound read (m.serve read call).2 := by
  cases call with
  | request key => exact h.request key
  | contains key => exact h
  | size => exact h
  | info => exact h
  | clear => exact Sound.ofBound read h.legal
  | setBound bound => exact ⟨h.nodup, h.faithful, hcall⟩

theorem Reached.sound {read : String → Except ε α} {m : Memo α}
    (h : Reached read m) : Sound read m :=
  h.invariant (fun _ hbound => Sound.ofBound read hbound)
    fun _ call hm hcall => hm.serve call hcall

theorem canHold_of_legal {bound : Option Int} (h : LegalBound bound) :
    canHold bound = true := by
  cases bound with
  | none => rfl
  | some n =>
      have hn : 1 ≤ n := h n rfl
      simp only [canHold, decide_eq_true_eq]
      omega

theorem Sound.result_request {read : String → Except ε α} {m : Memo α}
    (h : Sound read m) (key : String) :
    (m.request read key).1.result = some (read key) := by
  cases hfind : m.find? key with
  | some a =>
      rw [request_of_find? hfind,
        h.faithful (key, a) (mem_entries_of_find? hfind)]
      rfl
  | none =>
      cases hread : read key with
      | error e =>
          rw [request_of_error hfind hread]
          rfl
      | ok a =>
          rw [request_of_ok hfind hread, canHold_of_legal h.legal]
          rfl

end Memo

end TreePath
