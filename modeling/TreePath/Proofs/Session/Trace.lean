import TreePath.Proofs.Reader.Lenient
import TreePath.Proofs.Session.Emission

/-!
What an operation adds to the trace. An operation is traced if it adds the events that
are listed for it, and these only if a trace is kept, and if nothing else that it does
depends on whether one is.
-/

namespace TreePath.Trace

open TreePath.Access
open TreePath.Session (outcome final outcome_bind final_bind outcome_tryCatch
  final_tryCatch createMemo defaultMemo parseThrough asPath)

variable {α β : Type}

/-- The session with another logger and another trace. -/
def retraced (s : Session) (logger : Logger) (trace : List TraceEvent) : Session :=
  { s with logger, trace }

/-- The trace behind some events. -/
def recorded (logger : Logger) (trace events : List TraceEvent) : List TraceEvent :=
  if logger.isTracing then trace ++ events else trace

structure Traced (op : SessionM α) (events : Session → List TraceEvent) : Prop where
  outcome_eq : ∀ s l t, outcome op (retraced s l t) = outcome op s
  final_eq : ∀ s l t,
    final op (retraced s l t) = retraced (final op s) l (recorded l t (events s))

abbrev Silent (op : SessionM α) : Prop :=
  Traced op fun _ => []

/-- The events of what comes next, if anything does. -/
def eventsBehind (op : SessionM α) (next : α → Session → List TraceEvent) (s : Session) :
    List TraceEvent :=
  match outcome op s with
  | .ok a => next a (final op s)
  | .error _ => []

section Recorded

variable {logger : Logger} {trace : List TraceEvent}

theorem recorded_nil : recorded logger trace [] = trace := by
  rw [recorded, List.append_nil, ite_self]

theorem recorded_append (first second : List TraceEvent) :
    recorded logger trace (first ++ second) =
      recorded logger (recorded logger trace first) second := by
  unfold recorded
  split
  · exact (List.append_assoc _ _ _).symm
  · rfl

theorem note_retraced (s : Session) (event : TraceEvent) :
    (retraced s logger trace).note event =
      retraced s logger (recorded logger trace [event]) := by
  cases h : logger.isTracing with
  | true => simp only [Session.note, recorded, retraced, h, ↓reduceIte]
  | false => simp only [Session.note, recorded, retraced, h, Bool.false_eq_true, ↓reduceIte]

theorem retraced_note (s : Session) (event : TraceEvent) :
    retraced (s.note event) logger trace = retraced s logger trace := by
  unfold Session.note
  split <;> rfl

end Recorded

section Combination

variable {op : SessionM α} {f : α → SessionM β} {events first : Session → List TraceEvent}
  {next : α → Session → List TraceEvent}

theorem Traced.congr (h : Traced op first) (hevents : ∀ s, first s = events s) :
    Traced op events := by
  rwa [← funext hevents]

theorem silent_of_forall (houtcome : ∀ s l t, outcome op (retraced s l t) = outcome op s)
    (hfinal : ∀ s l t, final op (retraced s l t) = retraced (final op s) l t) :
    Silent op where
  outcome_eq := houtcome
  final_eq := by
    intro s l t
    rw [recorded_nil]
    exact hfinal s l t

theorem silent_pure (a : α) : Silent (pure a : SessionM α) :=
  silent_of_forall (fun _ _ _ => rfl) fun _ _ _ => rfl

theorem silent_throw (e : Failure) : Silent (throw e : SessionM α) :=
  silent_of_forall (fun _ _ _ => rfl) fun _ _ _ => rfl

theorem silent_modify {change : Session → Session}
    (h : ∀ s l t, change (retraced s l t) = retraced (change s) l t) :
    Silent (modify change : SessionM Unit) :=
  silent_of_forall (fun _ _ _ => rfl) h

theorem silent_get_bind {look : Session → SessionM β}
    (hlook : ∀ s l t, look (retraced s l t) = look s) (h : ∀ s, Silent (look s)) :
    Silent (get >>= look) where
  outcome_eq := by
    intro s l t
    rw [outcome_bind, outcome_bind]
    exact (congrArg (outcome · _) (hlook s l t)).trans ((h s).outcome_eq s l t)
  final_eq := by
    intro s l t
    rw [final_bind, final_bind]
    exact (congrArg (final · _) (hlook s l t)).trans ((h s).final_eq s l t)

theorem Traced.bind (hop : Traced op first) (hf : ∀ a, Traced (f a) (next a)) :
    Traced (op >>= f) fun s => first s ++ eventsBehind op next s where
  outcome_eq := by
    intro s l t
    rw [outcome_bind, outcome_bind, hop.outcome_eq, hop.final_eq]
    cases outcome op s with
    | ok a => exact (hf a).outcome_eq _ _ _
    | error e => rfl
  final_eq := by
    intro s l t
    rw [final_bind, final_bind, hop.outcome_eq, hop.final_eq, recorded_append, eventsBehind]
    cases outcome op s with
    | ok a => exact (hf a).final_eq _ _ _
    | error e => exact congrArg (retraced _ l) recorded_nil.symm

theorem Traced.bind_silent (hop : Traced op events) (hf : ∀ a, Silent (f a)) :
    Traced (op >>= f) events := by
  refine (hop.bind hf).congr ?_
  intro s
  rw [eventsBehind]
  cases outcome op s <;> exact List.append_nil _

theorem Silent.bind (hop : Silent op) (hf : ∀ a, Traced (f a) (next a)) :
    Traced (op >>= f) (eventsBehind op next) :=
  Traced.bind hop hf

theorem Traced.tryCatch {handler : Failure → SessionM α} (hop : Traced op events)
    (hhandler : ∀ e, Silent (handler e)) : Traced (tryCatch op handler) events where
  outcome_eq := by
    intro s l t
    rw [outcome_tryCatch, outcome_tryCatch, hop.outcome_eq, hop.final_eq]
    cases outcome op s with
    | ok a => rfl
    | error e => exact (hhandler e).outcome_eq _ _ _
  final_eq := by
    intro s l t
    rw [final_tryCatch, final_tryCatch, hop.outcome_eq, hop.final_eq]
    cases outcome op s with
    | ok a => rfl
    | error e =>
        refine ((hhandler e).final_eq _ _ _).trans ?_
        rw [recorded_nil]

end Combination

section Parse

/-- A text that the memo lacks and that can be read. -/
def requestEvents (memo : PathMemo) (text : String) : List TraceEvent :=
  if memo.contains text then []
  else
    match parseSteps text with
    | .ok steps => [.parsed text steps.length]
    | .error _ => []

/-- The default memo is asked, if there is one or one can be made. -/
def parseEvents (text : String) : Session → List TraceEvent :=
  eventsBehind defaultMemo fun number s => requestEvents (s.memoAt number) text

/-- A path that is none yet is parsed if it is a text. -/
def argumentEvents : PathArgument → Session → List TraceEvent
  | .value (.str text) => parseEvents text
  | _ => fun _ => []

theorem silent_createMemo (bound : Option Int) : Silent (createMemo bound) := by
  refine silent_of_forall ?_ ?_
  · intro s l t
    simp only [createMemo, outcome_bind, Session.outcome_get, Session.final_get]
    cases (Memo.create bound : Except BoundTooSmall PathMemo) <;> rfl
  · intro s l t
    simp only [createMemo, final_bind, Session.outcome_get, Session.final_get]
    cases (Memo.create bound : Except BoundTooSmall PathMemo) <;> rfl

theorem silent_defaultMemo : Silent defaultMemo := by
  refine silent_get_bind (fun _ _ _ => rfl) ?_
  intro s
  split
  · exact silent_pure _
  · refine silent_get_bind (fun _ _ _ => rfl) ?_
    intro s'
    refine (silent_createMemo _).bind_silent ?_
    intro number
    exact (silent_modify fun _ _ _ => rfl).bind_silent fun _ => silent_pure _

theorem contains_eq_isSome_find? (memo : PathMemo) (text : String) :
    memo.contains text = (memo.find? text).isSome := by
  rw [Memo.contains, Memo.find?, Option.isSome_map, Bool.eq_iff_iff, List.find?_isSome,
    List.any_eq_true]

theorem requestEvents_eq (memo : PathMemo) (text : String) :
    requestEvents memo text =
      match (memo.request parseSteps text).1 with
      | .fresh steps => [.parsed text steps.length]
      | .unkept steps => [.parsed text steps.length]
      | _ => [] := by
  rw [requestEvents, contains_eq_isSome_find?]
  rcases Memo.request_cases memo parseSteps text with
    ⟨steps, hfind, hrequest⟩ | ⟨e, hfind, hread, hrequest⟩ | ⟨steps, hfind, hread, hrequest⟩
  · rw [hfind, hrequest]
    rfl
  · rw [hfind, hrequest, hread]
    rfl
  · rw [hfind, hrequest, hread]
    cases Memo.canHold memo.bound <;> rfl

theorem traced_parseThrough (number : Nat) (text : String) :
    Traced (parseThrough number text) fun s => requestEvents (s.memoAt number) text where
  outcome_eq := by
    intro s l t
    have hmemo : (retraced s l t).memoAt number = s.memoAt number := rfl
    simp only [parseThrough, outcome_bind, Session.outcome_get, Session.final_get, hmemo]
    rcases (s.memoAt number).request parseSteps text with ⟨answer, memo⟩
    cases answer <;> rfl
  final_eq := by
    intro s l t
    have hmemo : (retraced s l t).memoAt number = s.memoAt number := rfl
    simp only [parseThrough, final_bind, Session.outcome_get, Session.final_get, hmemo,
      requestEvents_eq]
    rcases (s.memoAt number).request parseSteps text with ⟨answer, memo⟩
    have hsilent : retraced (s.setMemo number memo) l t =
        retraced (s.setMemo number memo) l (recorded l t []) := by
      rw [recorded_nil]
    have hnoted : ∀ event, (retraced (s.setMemo number memo) l t).note event =
        retraced ((s.setMemo number memo).note event) l (recorded l t [event]) := by
      intro event
      rw [note_retraced, retraced_note]
    cases answer with
    | held steps => exact hsilent
    | fresh steps => exact hnoted _
    | unkept steps => exact hnoted _
    | failed e => exact hsilent

theorem traced_parse (text : String) : Traced (Session.parse text) (parseEvents text) := by
  refine Silent.bind silent_defaultMemo ?_
  intro number
  exact (traced_parseThrough number text).bind_silent fun _ => silent_pure _

theorem traced_parseArgument (argument : PathArgument) :
    Traced (Session.parseArgument argument) (argumentEvents argument) := by
  cases argument with
  | path p => exact silent_throw _
  | value v =>
      cases v with
      | str text => exact traced_parse text
      | _ => exact silent_throw _

theorem traced_asPath (argument : PathArgument) :
    Traced (asPath argument) (argumentEvents argument) := by
  cases argument with
  | path p => exact silent_pure p
  | value v => exact traced_parseArgument (.value v)

theorem traced_constant (argument : PathArgument) :
    Traced (Session.constant argument) (argumentEvents argument) := by
  refine (traced_parseArgument argument).tryCatch ?_
  intro e
  split <;> exact silent_throw _

end Parse

section Fetch

/-- A failed traversal, by its path and the reason. -/
def faultEvents : Except Failure α → List TraceEvent
  | .error (.traversal f) => [.fetchFailed f.path.render (reasonWord f.cause)]
  | _ => []

theorem traced_noteFault (f : TraversalFault) :
    Traced (Session.noteFault f) fun _ => [.fetchFailed f.path.render (reasonWord f.cause)] where
  outcome_eq := fun _ _ _ => rfl
  final_eq := by
    intro s l t
    simp only [Session.noteFault, Session.final_modify, note_retraced, retraced_note,
      reason_eq_reasonWord]

theorem traced_fetch (root : Value) (p : Path) (expected : Expected) (substitute : Value) :
    Traced (Session.fetch root p expected substitute) fun s =>
      faultEvents (outcome (Session.fetch root p expected substitute) s) := by
  unfold Session.fetch
  cases fetch root p expected substitute with
  | ok v => exact silent_pure v
  | error e =>
      cases e with
      | traversal f => exact (traced_noteFault f).bind_silent fun _ => silent_throw _
      | tooLarge => exact silent_throw _

/-- Only a blocked walk leaves an event here, not a value that is not as expected. -/
theorem traced_fetchOptional (root : Value) (p : Path) (expected : Expected)
    (nullIsAbsent : Bool) :
    Traced (Session.fetchOptional root p expected nullIsAbsent) fun s =>
      faultEvents (outcome (Session.resolve root p) s) := by
  unfold Session.fetchOptional Session.resolve
  cases resolve root p with
  | error f => exact (traced_noteFault f).bind_silent fun _ => silent_pure _
  | ok found =>
      dsimp only
      split
      · exact silent_pure _
      · split
        · exact silent_pure _
        · exact silent_throw _

/-- Behind an operation that ends in no failed traversal, those of what comes next are
those of the whole. -/
theorem Traced.bind_faults {γ : Type} {op : SessionM α} {f : α → SessionM β}
    {g : α → SessionM γ} {events : Session → List TraceEvent} (hop : Traced op events)
    (hne : ∀ s f, outcome op s ≠ .error (.traversal f))
    (hf : ∀ a, Traced (f a) fun s => faultEvents (outcome (g a) s)) :
    Traced (op >>= f) fun s => events s ++ faultEvents (outcome (op >>= g) s) := by
  refine (hop.bind hf).congr ?_
  intro s
  rw [eventsBehind, outcome_bind]
  cases h : outcome op s with
  | ok a => rfl
  | error e =>
      cases e with
      | traversal f => exact absurd h (hne s f)
      | _ => rfl

variable (r : Reader) (path : PathArgument) (expected : Expected)

theorem traced_valueAt (substitute : Value) :
    Traced (r.valueAt path expected substitute) fun s =>
      argumentEvents path s ++ faultEvents (outcome (r.valueAt path expected substitute) s) :=
  (traced_asPath path).bind_faults (fun _ f => Lenient.asPath_ne_traversal f) fun p =>
    traced_fetch r.root p expected substitute

theorem traced_readerAt :
    Traced (r.readerAt path) fun s =>
      argumentEvents path s ++ faultEvents (outcome (r.readerAt path) s) := by
  refine ((traced_valueAt r path .anything .missing).bind_silent fun _ =>
    silent_pure _).congr ?_
  intro s
  rw [Reader.readerAt, outcome_bind]
  cases outcome (r.valueAt path .anything .missing) s with
  | ok v => rfl
  | error e => cases e <;> rfl

theorem traced_optionalValueAt (nullIsAbsent : Bool) :
    Traced (r.optionalValueAt path expected nullIsAbsent) fun s =>
      argumentEvents path s ++
        faultEvents (outcome (do Session.resolve r.root (← asPath path)) s) :=
  (traced_asPath path).bind_faults (fun _ f => Lenient.asPath_ne_traversal f) fun p =>
    traced_fetchOptional r.root p expected nullIsAbsent

theorem traced_valueOrDefault (default : Value) :
    Traced (r.valueOrDefault path default expected) fun s =>
      argumentEvents path s ++ faultEvents (outcome (r.valueAt path expected .missing) s) := by
  refine (traced_valueAt r path expected .missing).tryCatch ?_
  intro e
  split
  · exact silent_pure default
  · exact silent_throw e

theorem silent_ofDocument (data : Value) (fragments : Option Bool) :
    Silent (Reader.ofDocument data fragments) := by
  refine silent_get_bind (fun _ _ _ => rfl) ?_
  intro s
  dsimp only
  split
  · exact silent_pure _
  · exact silent_throw _

end Fetch

section Bracket

theorem silent_enter (bound : Option Int) : Silent (Session.enter bound) := by
  refine silent_defaultMemo.bind_silent ?_
  intro installed
  refine silent_get_bind (fun _ _ _ => rfl) ?_
  intro s
  refine (silent_modify fun _ _ _ => rfl).bind_silent ?_
  intro _
  refine (silent_createMemo bound).bind_silent ?_
  intro number
  exact (silent_modify fun _ _ _ => rfl).bind_silent fun _ => silent_pure number

theorem silent_leave : Silent Session.leave := by
  refine silent_modify ?_
  intro s l t
  rcases s with ⟨settings, logger, trace, memos, installed, _ | ⟨snapshot, outer⟩⟩ <;> rfl

end Bracket

end TreePath.Trace
