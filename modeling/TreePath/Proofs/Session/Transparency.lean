import TreePath.Proofs.Memo.Run
import TreePath.Proofs.Session.Outcome
import TreePath.Reader

/-!
The memo cannot be seen in results. A session is ready if its default memo came about
by calls on a new one; an operation is steady if it hands out the same in all ready
sessions and leaves them ready.
-/

namespace TreePath.Session

open TreePath.Memo

variable {α β : Type}

/-- The default memo has a history, or one can be made from the settings. -/
def Ready (s : Session) : Prop :=
  match s.installed with
  | some number => Reached parseSteps (s.memoAt number)
  | none => LegalBound s.settings.memoBound

structure Steady (op : SessionM α) : Prop where
  ready : ∀ s, s.Ready → (final op s).Ready
  same : ∀ s t, s.Ready → t.Ready → outcome op s = outcome op t

theorem ready_of_installed {s : Session} {number : Nat}
    (h : s.installed = some number) :
    s.Ready ↔ Reached parseSteps (s.memoAt number) := by
  rw [Ready, h]

theorem ready_of_not_installed {s : Session} (h : s.installed = none) :
    s.Ready ↔ LegalBound s.settings.memoBound := by
  rw [Ready, h]

theorem ready_new : Session.Ready {} :=
  legalBound_none

theorem ready_note {s : Session} (h : s.Ready) (event : TraceEvent) :
    (s.note event).Ready := by
  simpa only [Ready, note_installed, note_settings, memoAt_note] using h

theorem reached_memoAt_setMemo {s : Session} {number : Nat} {memo : PathMemo}
    (h : Reached parseSteps memo) :
    Reached parseSteps ((s.setMemo number memo).memoAt number) := by
  simp only [memoAt, setMemo, List.getElem?_set_self']
  cases s.memos[number]? with
  | none => exact reached_ofBound parseSteps legalBound_none
  | some old => exact h

theorem final_parseThrough (number : Nat) (text : String) (s : Session) :
    let t := s.setMemo number ((s.memoAt number).request parseSteps text).2
    final (parseThrough number text) s = t ∨
      ∃ event, final (parseThrough number text) s = t.note event := by
  unfold parseThrough
  simp only [final_bind, outcome_get, final_get]
  rcases (s.memoAt number).request parseSteps text with ⟨answer, memo⟩
  cases answer with
  | held steps => exact Or.inl rfl
  | fresh steps => exact Or.inr ⟨_, rfl⟩
  | unkept steps => exact Or.inr ⟨_, rfl⟩
  | failed e => exact Or.inl rfl

theorem outcome_parseThrough {number : Nat} {s : Session}
    (h : Reached parseSteps (s.memoAt number)) (text : String) :
    outcome (parseThrough number text) s =
      (parseSteps text).mapError Failure.ofParseError := by
  have hresult := h.sound.result_request text
  unfold parseThrough
  simp only [outcome_bind, outcome_get, final_get]
  revert hresult
  rcases (s.memoAt number).request parseSteps text with ⟨answer, memo⟩
  intro hresult
  cases answer with
  | held steps =>
      rw [← Option.some.inj hresult]
      rfl
  | fresh steps =>
      rw [← Option.some.inj hresult]
      rfl
  | unkept steps => cases hresult
  | failed e =>
      rw [← Option.some.inj hresult]
      rfl

theorem ready_final_parseThrough {number : Nat} {s : Session} (hs : s.Ready)
    (hnumber : s.installed = some number) (text : String) :
    (final (parseThrough number text) s).Ready := by
  have hmemo : Reached parseSteps (s.memoAt number) :=
    (ready_of_installed hnumber).mp hs
  let t := s.setMemo number ((s.memoAt number).request parseSteps text).2
  have hinstalled : t.installed = some number := hnumber
  have hset : t.Ready := (ready_of_installed hinstalled).mpr
    (reached_memoAt_setMemo (hmemo.serve (.request text) trivial))
  rcases final_parseThrough number text s with h | ⟨event, h⟩
  · rw [h]
    exact hset
  · rw [h]
    exact ready_note hset event

theorem createMemo_cases (bound : Option Int) (s : Session) :
    (¬ LegalBound bound ∧ outcome (createMemo bound) s = .error .boundTooSmall ∧
        final (createMemo bound) s = s) ∨
      LegalBound bound ∧ outcome (createMemo bound) s = .ok s.memos.length ∧
        final (createMemo bound) s =
          { s with memos := s.memos ++ [ofBound bound] } := by
  unfold createMemo
  simp only [outcome_bind, final_bind, outcome_get, final_get]
  cases hcreate : (Memo.create bound : Except BoundTooSmall PathMemo) with
  | error e =>
      refine Or.inl ⟨?_, rfl, rfl⟩
      intro hbound
      cases hcreate.symm.trans (create_eq_ok_iff.mpr ⟨hbound, rfl⟩)
  | ok memo =>
      obtain ⟨hbound, rfl⟩ := create_eq_ok_iff.mp hcreate
      exact Or.inr ⟨hbound, rfl, rfl⟩

theorem defaultMemo_cases (s : Session) :
    (∃ number, s.installed = some number ∧ outcome defaultMemo s = .ok number ∧
        final defaultMemo s = s) ∨
      s.installed = none ∧
        ((¬ LegalBound s.settings.memoBound ∧
            outcome defaultMemo s = .error .boundTooSmall ∧ final defaultMemo s = s) ∨
          outcome defaultMemo s = .ok s.memos.length ∧
            final defaultMemo s =
              { s with
                memos := s.memos ++ [ofBound s.settings.memoBound]
                installed := some s.memos.length }) := by
  cases hinstalled : s.installed with
  | some number =>
      refine Or.inl ⟨number, rfl, ?_⟩
      simp only [defaultMemo, outcome_bind, final_bind, outcome_get, final_get,
        hinstalled, outcome_pure, final_pure, and_self]
  | none =>
      refine Or.inr ⟨rfl, ?_⟩
      rcases createMemo_cases s.settings.memoBound s with
        ⟨hbound, houtcome, hfinal⟩ | ⟨-, houtcome, hfinal⟩
      · refine Or.inl ⟨hbound, ?_⟩
        simp only [defaultMemo, outcome_bind, final_bind, outcome_get, final_get,
          hinstalled, houtcome, hfinal, and_self]
      · refine Or.inr ?_
        simp only [defaultMemo, outcome_bind, final_bind, outcome_get, final_get,
          hinstalled, houtcome, hfinal, outcome_modify, final_modify, outcome_pure,
          final_pure, and_self]

theorem defaultMemo_of_installed {s : Session} {number : Nat}
    (h : s.installed = some number) :
    outcome defaultMemo s = .ok number ∧ final defaultMemo s = s := by
  rcases defaultMemo_cases s with ⟨found, hfound, hdefault⟩ | ⟨hnone, -⟩
  · rw [h] at hfound
    cases hfound
    exact hdefault
  · rw [h] at hnone
    cases hnone

theorem defaultMemo_of_ready {s : Session} (hs : s.Ready) :
    ∃ number, outcome defaultMemo s = .ok number ∧
      (final defaultMemo s).installed = some number ∧
      (final defaultMemo s).Ready := by
  rcases defaultMemo_cases s with
    ⟨number, hinstalled, houtcome, hfinal⟩ |
      ⟨hinstalled, ⟨hbound, -⟩ | ⟨houtcome, hfinal⟩⟩
  · rw [hfinal]
    exact ⟨number, houtcome, hinstalled, hs⟩
  · exact absurd ((ready_of_not_installed hinstalled).mp hs) hbound
  · rw [hfinal]
    refine ⟨_, houtcome, rfl, (ready_of_installed rfl).mpr ?_⟩
    simpa only [memoAt, List.getElem?_concat_length, Option.getD_some] using
      reached_ofBound parseSteps ((ready_of_not_installed hinstalled).mp hs)

/-- What a path text stands for, whatever memo it is looked up in. -/
def readPath (text : String) : Except Failure Path :=
  ((parseSteps text).mapError Failure.ofParseError).map Path.mk

theorem readPath_eq_ok_iff {text : String} {p : Path} :
    readPath text = .ok p ↔ parseSteps text = .ok p.steps := by
  rw [readPath]
  cases parseSteps text with
  | error e => exact iff_of_false nofun nofun
  | ok steps =>
      constructor
      · rintro ⟨⟩
        rfl
      · rintro ⟨⟩
        rfl

theorem outcome_parse {s : Session} (hs : s.Ready) (text : String) :
    outcome (parse text) s = readPath text := by
  obtain ⟨number, hnumber, hinstalled, hready⟩ := defaultMemo_of_ready hs
  have hread := outcome_parseThrough ((ready_of_installed hinstalled).mp hready) text
  rw [parse, outcome_bind, hnumber]
  simp only [outcome_bind, hread, readPath]
  cases (parseSteps text).mapError Failure.ofParseError <;> rfl

theorem ready_final_parse {s : Session} (hs : s.Ready) (text : String) :
    (final (parse text) s).Ready := by
  obtain ⟨number, hnumber, hinstalled, hready⟩ := defaultMemo_of_ready hs
  have hthrough := ready_final_parseThrough hready hinstalled text
  rw [parse, final_bind, hnumber]
  simp only [final_bind]
  cases outcome (parseThrough number text) (final defaultMemo s) with
  | ok steps => exact hthrough
  | error e => exact hthrough

theorem steady_parse (text : String) : Steady (parse text) where
  ready := fun _ hs => ready_final_parse hs text
  same := by
    intro s t hs ht
    rw [outcome_parse hs, outcome_parse ht]

theorem steady_pure (a : α) : Steady (pure a) where
  ready := by
    intro s hs
    rw [final_pure]
    exact hs
  same := by
    intro s t _ _
    rw [outcome_pure, outcome_pure]

theorem steady_throw (e : Failure) : Steady (throw e : SessionM α) where
  ready := by
    intro s hs
    rw [final_throw]
    exact hs
  same := by
    intro s t _ _
    rw [outcome_throw, outcome_throw]

theorem steady_noteFault (f : TraversalFault) : Steady (noteFault f) where
  ready := fun _ hs => ready_note hs _
  same := fun _ _ _ _ => rfl

theorem Steady.bind {x : SessionM α} {f : α → SessionM β} (hx : Steady x)
    (hf : ∀ a, Steady (f a)) : Steady (x >>= f) where
  ready := by
    intro s hs
    rw [final_bind]
    cases outcome x s with
    | ok a => exact (hf a).ready _ (hx.ready s hs)
    | error e => exact hx.ready s hs
  same := by
    intro s t hs ht
    rw [outcome_bind, outcome_bind, hx.same s t hs ht]
    cases outcome x t with
    | ok a => exact (hf a).same _ _ (hx.ready s hs) (hx.ready t ht)
    | error e => rfl

theorem Steady.tryCatch {x : SessionM α} {f : Failure → SessionM α}
    (hx : Steady x) (hf : ∀ e, Steady (f e)) : Steady (tryCatch x f) where
  ready := by
    intro s hs
    rw [final_tryCatch]
    cases outcome x s with
    | ok a => exact hx.ready s hs
    | error e => exact (hf e).ready _ (hx.ready s hs)
  same := by
    intro s t hs ht
    rw [outcome_tryCatch, outcome_tryCatch, hx.same s t hs ht]
    cases outcome x t with
    | ok a => rfl
    | error e => exact (hf e).same _ _ (hx.ready s hs) (hx.ready t ht)

theorem steady_parseArgument (argument : PathArgument) :
    Steady (parseArgument argument) := by
  unfold parseArgument
  split
  · exact steady_parse _
  · exact steady_throw _

theorem steady_asPath (argument : PathArgument) : Steady (asPath argument) := by
  cases argument with
  | path p => exact steady_pure p
  | value v => exact steady_parseArgument _

theorem steady_constant (argument : PathArgument) : Steady (constant argument) := by
  refine (steady_parseArgument argument).tryCatch ?_
  intro e
  split <;> exact steady_throw _

theorem steady_fetch (root : Value) (path : Path) (expected : Expected)
    (substitute : Value) : Steady (fetch root path expected substitute) := by
  unfold fetch
  split
  · exact steady_pure _
  · exact (steady_noteFault _).bind fun _ => steady_throw _
  · exact steady_throw _

theorem steady_fetchOptional (root : Value) (path : Path) (expected : Expected)
    (nullIsAbsent : Bool) :
    Steady (fetchOptional root path expected nullIsAbsent) := by
  unfold fetchOptional
  split
  · exact (steady_noteFault _).bind fun _ => steady_pure _
  · split
    · exact steady_pure _
    · split
      · exact steady_pure _
      · exact steady_throw _

theorem steady_valueAt (r : Reader) (path : PathArgument) (expected : Expected)
    (substitute : Value) : Steady (r.valueAt path expected substitute) :=
  (steady_asPath path).bind fun p => steady_fetch r.root p expected substitute

theorem steady_readerAt (r : Reader) (path : PathArgument) :
    Steady (r.readerAt path) :=
  (steady_valueAt r path .anything .missing).bind fun v => steady_pure (Reader.mk v)

theorem steady_optionalValueAt (r : Reader) (path : PathArgument)
    (expected : Expected) (nullIsAbsent : Bool) :
    Steady (r.optionalValueAt path expected nullIsAbsent) :=
  (steady_asPath path).bind fun p =>
    steady_fetchOptional r.root p expected nullIsAbsent

theorem steady_valueOrDefault (r : Reader) (path : PathArgument) (default : Value)
    (expected : Expected) : Steady (r.valueOrDefault path default expected) := by
  refine (steady_valueAt r path expected .missing).tryCatch ?_
  intro e
  split
  · exact steady_pure default
  · exact steady_throw _

/-- Behind every run of calls a request answers what reading its text gives, and
so does a parse by way of that memo. Hence neither a parse nor a reader shows
which memo is installed or what was asked of it before. -/
theorem memo_is_invisible :
    (∀ (bound : Option Int) (fresh : PathMemo) (calls : List Call),
      Memo.create bound = .ok fresh → (∀ call ∈ calls, call.Legal) →
        (∀ e ∈ (fresh.after parseSteps calls).entries,
          parseSteps e.1 = .ok e.2) ∧
        ∀ text, ((fresh.after parseSteps calls).request parseSteps text).1.result =
          some (parseSteps text)) ∧
    (∀ (s : Session) (number : Nat), Reached parseSteps (s.memoAt number) →
      ∀ text, outcome (parseThrough number text) s =
        (parseSteps text).mapError Failure.ofParseError) ∧
    (∀ s : Session, s.Ready → ∀ text, outcome (parse text) s = readPath text) ∧
    ∀ s t : Session, s.Ready → t.Ready →
      ∀ (r : Reader) (path : PathArgument) (expected : Expected) (v : Value)
        (nullIsAbsent : Bool),
        outcome (constant path) s = outcome (constant path) t ∧
        outcome (r.valueAt path expected v) s =
          outcome (r.valueAt path expected v) t ∧
        outcome (r.readerAt path) s = outcome (r.readerAt path) t ∧
        outcome (r.optionalValueAt path expected nullIsAbsent) s =
          outcome (r.optionalValueAt path expected nullIsAbsent) t ∧
        outcome (r.valueOrDefault path v expected) s =
          outcome (r.valueOrDefault path v expected) t := by
  refine ⟨?_, fun s number h text => outcome_parseThrough h text,
    fun s hs text => outcome_parse hs text, ?_⟩
  · intro bound fresh calls hfresh hcalls
    have hsound : Sound parseSteps (fresh.after parseSteps calls) :=
      Reached.sound ⟨bound, fresh, calls, hfresh, hcalls, rfl⟩
    exact ⟨hsound.faithful, hsound.result_request⟩
  · intro s t hs ht r path expected v nullIsAbsent
    exact ⟨(steady_constant path).same s t hs ht,
      (steady_valueAt r path expected v).same s t hs ht,
      (steady_readerAt r path).same s t hs ht,
      (steady_optionalValueAt r path expected nullIsAbsent).same s t hs ht,
      (steady_valueOrDefault r path v expected).same s t hs ht⟩

theorem memo_is_invisible_after_evictions :
    let calls : List Call :=
      [.request "a", .contains "a", .request "b", .request "[", .setBound none,
        .request "a", .clear, .request "", .setBound (some 2), .request "b"]
    let m : PathMemo := (ofBound (some 1)).after parseSteps calls
    let s : Session := { memos := [m], installed := some 0 }
    let r : Reader := ⟨.map [("a", .int 1)]⟩
    Memo.create (some 1) = .ok (ofBound (some 1) : PathMemo) ∧
      (∀ call ∈ calls, call.Legal) ∧ s.Ready ∧ Session.Ready {} ∧
      (m.request parseSteps "a").1.result = some (parseSteps "a") ∧
      outcome (parseThrough 0 "a") s =
        (parseSteps "a").mapError Failure.ofParseError ∧
      outcome (parse "a[") s = readPath "a[" ∧
      outcome (r.valueAt (.value (.str "a")) .anything .missing) s =
        outcome (r.valueAt (.value (.str "a")) .anything .missing) {} := by
  intro calls m s r
  have hlegal : ∀ call ∈ calls, call.Legal := by
    simp [calls, Call.Legal, LegalBound]
  have hmemo : Reached parseSteps (s.memoAt 0) :=
    ⟨some 1, ofBound (some 1), calls, rfl, hlegal, rfl⟩
  have hs : s.Ready := (ready_of_installed rfl).mpr hmemo
  obtain ⟨hrun, hthrough, hparse, hreaders⟩ := memo_is_invisible
  exact ⟨rfl, hlegal, hs, ready_new, (hrun (some 1) _ calls rfl hlegal).2 "a",
    hthrough s 0 hmemo "a", hparse s hs "a[",
    (hreaders s {} hs ready_new r (.value (.str "a")) .anything .missing true).2.1⟩

end TreePath.Session
