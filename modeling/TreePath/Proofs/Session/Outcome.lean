import TreePath.Session

namespace TreePath.Session

variable {α β : Type}

def outcome (op : SessionM α) (s : Session) : Except Failure α :=
  (op.run.run s).1

def final (op : SessionM α) (s : Session) : Session :=
  (op.run.run s).2

@[simp] theorem outcome_pure (a : α) (s : Session) :
    outcome (pure a) s = .ok a :=
  rfl

@[simp] theorem final_pure (a : α) (s : Session) : final (pure a) s = s :=
  rfl

@[simp] theorem outcome_throw (e : Failure) (s : Session) :
    outcome (throw e : SessionM α) s = .error e :=
  rfl

@[simp] theorem final_throw (e : Failure) (s : Session) :
    final (throw e : SessionM α) s = s :=
  rfl

@[simp] theorem outcome_get (s : Session) : outcome get s = .ok s :=
  rfl

@[simp] theorem final_get (s : Session) : final get s = s :=
  rfl

@[simp] theorem outcome_set (t s : Session) : outcome (set t) s = .ok ⟨⟩ :=
  rfl

@[simp] theorem final_set (t s : Session) : final (set t) s = t :=
  rfl

@[simp] theorem outcome_modify (f : Session → Session) (s : Session) :
    outcome (modify f) s = .ok ⟨⟩ :=
  rfl

@[simp] theorem final_modify (f : Session → Session) (s : Session) :
    final (modify f) s = f s :=
  rfl

theorem outcome_bind (x : SessionM α) (f : α → SessionM β) (s : Session) :
    outcome (x >>= f) s =
      match outcome x s with
      | .ok a => outcome (f a) (final x s)
      | .error e => .error e := by
  simp only [outcome, final, ExceptT.run_bind, StateT.run_bind]
  rcases h : x.run.run s with ⟨r, t⟩
  cases r <;> rfl

theorem final_bind (x : SessionM α) (f : α → SessionM β) (s : Session) :
    final (x >>= f) s =
      match outcome x s with
      | .ok a => final (f a) (final x s)
      | .error _ => final x s := by
  simp only [outcome, final, ExceptT.run_bind, StateT.run_bind]
  rcases h : x.run.run s with ⟨r, t⟩
  cases r <;> rfl

theorem outcome_tryCatch (x : SessionM α) (f : Failure → SessionM α) (s : Session) :
    outcome (tryCatch x f) s =
      match outcome x s with
      | .ok a => .ok a
      | .error e => outcome (f e) (final x s) := by
  simp only [outcome, final, ExceptT.run_tryCatch, StateT.run_bind]
  rcases h : x.run.run s with ⟨r, t⟩
  cases r <;> rfl

theorem final_tryCatch (x : SessionM α) (f : Failure → SessionM α) (s : Session) :
    final (tryCatch x f) s =
      match outcome x s with
      | .ok _ => final x s
      | .error e => final (f e) (final x s) := by
  simp only [outcome, final, ExceptT.run_tryCatch, StateT.run_bind]
  rcases h : x.run.run s with ⟨r, t⟩
  cases r <;> rfl

theorem run_tryFinally (x : SessionM α) (last : SessionM β) (s : Session) :
    (tryFinally x last).run.run s =
      match last.run.run (x.run.run s).2 with
      | (.ok _, t) => ((x.run.run s).1, t)
      | (.error e, t) => (.error e, t) := by
  rcases hx : x.run.run s with ⟨r, t⟩
  rcases hlast : last.run.run t with ⟨r', u⟩
  simp only [ExceptT.run, StateT.run] at hx hlast
  simp only [tryFinally, tryFinally', ExceptT.run, StateT.run, Functor.map, ExceptT.map,
    ExceptT.mk, bind, StateT.bind, pure, hx]
  cases r <;> cases r' <;> simp only [hlast] <;> rfl

theorem outcome_tryFinally (x : SessionM α) (last : SessionM β) (s : Session) :
    outcome (tryFinally x last) s =
      match outcome last (final x s) with
      | .ok _ => outcome x s
      | .error e => .error e := by
  simp only [outcome, final, run_tryFinally]
  rcases last.run.run (x.run.run s).2 with ⟨_ | _, t⟩ <;> rfl

theorem final_tryFinally (x : SessionM α) (last : SessionM β) (s : Session) :
    final (tryFinally x last) s = final last (final x s) := by
  simp only [final, run_tryFinally]
  rcases last.run.run (x.run.run s).2 with ⟨_ | _, t⟩ <;> rfl

@[simp] theorem note_memos (s : Session) (event : TraceEvent) :
    (s.note event).memos = s.memos := by
  unfold note
  split <;> rfl

@[simp] theorem note_installed (s : Session) (event : TraceEvent) :
    (s.note event).installed = s.installed := by
  unfold note
  split <;> rfl

@[simp] theorem note_settings (s : Session) (event : TraceEvent) :
    (s.note event).settings = s.settings := by
  unfold note
  split <;> rfl

@[simp] theorem note_brackets (s : Session) (event : TraceEvent) :
    (s.note event).brackets = s.brackets := by
  unfold note
  split <;> rfl

@[simp] theorem memoAt_note (s : Session) (event : TraceEvent) (number : Nat) :
    (s.note event).memoAt number = s.memoAt number := by
  simp only [memoAt, note_memos]

end TreePath.Session
