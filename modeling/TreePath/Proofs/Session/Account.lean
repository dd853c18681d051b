import TreePath.Proofs.Session.Bracket
import TreePath.Proofs.Session.Trace

namespace TreePath.Trace

open TreePath.Bracket (observe)
open TreePath.Session (outcome final)

variable {α β : Type}

/-- What is done with readers, memos and settings, by the type of what it hands out.
A look at a memo is no request; what a reader is asked it answers by itself. -/
inductive Operation : Type → Type 1 where
  | parse (text : String) : Operation Path
  | constant (argument : PathArgument) : Operation Path
  | request (number : Nat) (text : String) : Operation (List Step)
  | look {β : Type} (number : Nat) (question : PathMemo → β) : Operation β
  | edit (number : Nat) (change : PathMemo → PathMemo) : Operation Unit
  | create (bound : Option Int) : Operation Nat
  | defaultMemo : Operation Nat
  | install (number : Option Nat) : Operation Unit
  | assign (change : Settings → Settings) : Operation Unit
  | enter (bound : Option Int) : Operation Nat
  | leave : Operation Unit
  | document (data : Value) (fragments : Option Bool) : Operation Reader
  | ask {β : Type} (r : Reader) (question : Reader → Except Failure β) : Operation β
  | valueAt (r : Reader) (path : PathArgument) (expected : Expected) (substitute : Value) :
      Operation Value
  | readerAt (r : Reader) (path : PathArgument) : Operation Reader
  | optionalValueAt (r : Reader) (path : PathArgument) (expected : Expected)
      (nullIsAbsent : Bool) : Operation Value
  | valueOrDefault (r : Reader) (path : PathArgument) (default : Value)
      (expected : Expected) : Operation Value

def Operation.perform : Operation β → SessionM β
  | parse text => Session.parse text
  | constant argument => Session.constant argument
  | request number text => Session.parseThrough number text
  | look number question => do return question ((← get).memoAt number)
  | edit number change => Session.changeMemo number change
  | create bound => Session.createMemo bound
  | defaultMemo => Session.defaultMemo
  | install number => Session.install number
  | assign change => modify fun s => { s with settings := change s.settings }
  | enter bound => Session.enter bound
  | leave => Session.leave
  | document data fragments => Reader.ofDocument data fragments
  | ask r question =>
    match question r with
    | .ok answer => return answer
    | .error e => throw e
  | valueAt r path expected substitute => r.valueAt path expected substitute
  | readerAt r path => r.readerAt path
  | optionalValueAt r path expected nullIsAbsent =>
    r.optionalValueAt path expected nullIsAbsent
  | valueOrDefault r path default expected => r.valueOrDefault path default expected

/-- The events that an operation has to leave in a session: one for a text that its memo
lacks and that can be read, and one for a traversal that failed, raised or replaced by a
default; where the value may be lacking, only for a blocked walk. -/
def Operation.events : Operation β → Session → List TraceEvent
  | parse text, s => parseEvents text s
  | constant argument, s => argumentEvents argument s
  | request number text, s => requestEvents (s.memoAt number) text
  | valueAt r path expected substitute, s =>
    argumentEvents path s ++ faultEvents (outcome (r.valueAt path expected substitute) s)
  | readerAt r path, s => argumentEvents path s ++ faultEvents (outcome (r.readerAt path) s)
  | optionalValueAt r path _ _, s =>
    argumentEvents path s ++
      faultEvents (outcome (do Session.resolve r.root (← Session.asPath path)) s)
  | valueOrDefault r path _ expected, s =>
    argumentEvents path s ++ faultEvents (outcome (r.valueAt path expected .missing) s)
  | _, _ => []

/-- What comes next in a run may depend on how each operation ended. -/
inductive Program (α : Type) : Type 1 where
  | done (result : Except Failure α)
  | act {β : Type} (operation : Operation β) (next : Except Failure β → Program α)

def Program.run : Program α → SessionM α
  | done (.ok a) => pure a
  | done (.error e) => throw e
  | act operation next => do
    let result ← observe operation.perform
    (next result).run

/-- The events of the operations, each in the session that it finds. -/
def Program.events : Program α → Session → List TraceEvent
  | done _, _ => []
  | act operation next, s =>
    operation.events s ++
      (next (outcome operation.perform s)).events (final operation.perform s)

theorem traced_perform (operation : Operation β) :
    Traced operation.perform operation.events := by
  cases operation with
  | parse text => exact traced_parse text
  | constant argument => exact traced_constant argument
  | request number text => exact traced_parseThrough number text
  | look number question =>
      exact silent_get_bind (fun _ _ _ => rfl) fun _ => silent_pure _
  | edit number change => exact silent_modify fun _ _ _ => rfl
  | create bound => exact silent_createMemo bound
  | defaultMemo => exact silent_defaultMemo
  | install number => exact silent_modify fun _ _ _ => rfl
  | assign change => exact silent_modify fun _ _ _ => rfl
  | enter bound => exact silent_enter bound
  | leave => exact silent_leave
  | document data fragments => exact silent_ofDocument data fragments
  | ask r question =>
      unfold Operation.perform
      dsimp only
      split
      · exact silent_pure _
      · exact silent_throw _
  | valueAt r path expected substitute => exact traced_valueAt r path expected substitute
  | readerAt r path => exact traced_readerAt r path
  | optionalValueAt r path expected nullIsAbsent =>
      exact traced_optionalValueAt r path expected nullIsAbsent
  | valueOrDefault r path default expected => exact traced_valueOrDefault r path expected default

theorem traced_observe {op : SessionM β} {events : Session → List TraceEvent}
    (h : Traced op events) : Traced (observe op) events where
  outcome_eq := fun s l t => congrArg Except.ok (h.outcome_eq s l t)
  final_eq := h.final_eq

theorem traced_run (program : Program α) : Traced program.run program.events := by
  induction program with
  | done result =>
      cases result with
      | ok a => exact silent_pure a
      | error e => exact silent_throw e
  | act operation next ih =>
      exact ((traced_observe (traced_perform operation)).bind ih).congr fun _ => rfl

/-- A run that keeps a trace emits what is due for its operations, each once and in
their order. The parsed text and the number of its steps can be told from an emission,
or the path and the reason. Without a trace nothing is emitted and all else is as it was. -/
theorem trace_accounts_for_run (program : Program α) (s : Session) :
    (s.logger.isTracing = true →
      (final program.run s).trace = s.trace ++ program.events s ∧
        (final program.run s).trace.map TraceEvent.emission =
          s.trace.map TraceEvent.emission ++ (program.events s).map due) ∧
    (∀ event text count, due event = due (.parsed text count) → event = .parsed text count) ∧
    (∀ (p q : Path) (cause other : TraversalCause),
      due (.fetchFailed p.render (reasonWord cause)) =
          due (.fetchFailed q.render (reasonWord other)) →
        p = q ∧ reasonWord cause = reasonWord other) ∧
    ∀ logger : Logger, logger.isTracing = false →
      let quiet : Session := { s with logger }
      outcome program.run quiet = outcome program.run s ∧
        final program.run quiet = { final program.run s with logger, trace := s.trace } := by
  have hrun := traced_run program
  refine ⟨?_, fun _ _ _ => eq_parsed_of_due, fun _ _ _ _ => eq_of_due_fetchFailed, ?_⟩
  · intro htracing
    have hfinal : final program.run s = _ := hrun.final_eq s s.logger s.trace
    have htrace : (final program.run s).trace = s.trace ++ program.events s := by
      rw [hfinal, recorded, if_pos htracing]
      rfl
    refine ⟨htrace, ?_⟩
    rw [htrace, List.map_append]
    exact congrArg _ (List.map_congr_left fun event _ => emission_eq_due event)
  · intro logger hsilent quiet
    have hfinal : final program.run quiet = _ := hrun.final_eq s logger s.trace
    refine ⟨hrun.outcome_eq s logger s.trace, ?_⟩
    rw [hfinal, recorded, hsilent]
    rfl

/-- The memo has room for one text: "a" is held, then gives way to "b" and has to be
read again. -/
theorem trace_accounts_for_run_with_eviction :
    let r : Reader := ⟨.map [("a", .int 1)]⟩
    let a : PathArgument := .value (.str "a")
    let program : Program Path :=
      .act (.parse "a") fun _ =>
      .act (.valueAt r a .anything .missing) fun _ =>
      .act (.request 0 "[") fun _ =>
      .act (.optionalValueAt r a (.type .str) true) fun _ =>
      .act (.valueOrDefault r a .null (.type .str)) fun _ =>
      .act (.optionalValueAt r (.value (.str "b")) .anything true) fun _ =>
      .act (.readerAt ⟨.missing⟩ (.path ⟨[.here]⟩)) fun _ =>
      .act (.parse "a") .done
    let memo : PathMemo := .ofBound (some 1)
    let s : Session := { logger := ⟨10, [], 0⟩, memos := [memo], installed := some 0 }
    let quiet : Session := { s with logger := {} }
    s.logger.isTracing = true ∧ Logger.isTracing {} = false ∧
      (final program.run s).trace.map TraceEvent.emission =
        [⟨"DEBUG", "parse 'a' (1 components)", "cyan"⟩,
          ⟨"DEBUG", "traverse ['a'] failed: unexpectedType", "yellow"⟩,
          ⟨"DEBUG", "parse 'b' (1 components)", "cyan"⟩,
          ⟨"DEBUG", "traverse ['b'] failed: invalidSubscript", "yellow"⟩,
          ⟨"DEBUG", "traverse [self] failed: missingValue", "yellow"⟩,
          ⟨"DEBUG", "parse 'a' (1 components)", "cyan"⟩] ∧
      outcome program.run quiet = outcome program.run s ∧
      (final program.run quiet).trace = [] := by
  intro r a program memo s quiet
  obtain ⟨htraced, -, -, hquiet⟩ := trace_accounts_for_run program s
  obtain ⟨houtcome, hfinal⟩ := hquiet {} rfl
  refine ⟨rfl, rfl, ?_, houtcome, ?_⟩
  · rw [(htraced rfl).2]
    decide +kernel
  · rw [hfinal]

end TreePath.Trace
