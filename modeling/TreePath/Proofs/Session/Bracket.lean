import TreePath.Proofs.Session.Transparency

namespace TreePath.Bracket

open TreePath.Memo
open TreePath.Session

variable {α β : Type}

/-- What a body does at one time, by the type of what it learns from it. -/
inductive Deed : Type → Type where
  | look : Deed Session
  | assign (change : Settings → Settings) : Deed Unit
  | create (bound : Option Int) : Deed Nat
  | install (number : Option Nat) : Deed Unit
  | parse (text : String) : Deed Path
  | parseThrough (number : Nat) (text : String) : Deed (List Step)
  | edit (number : Nat) (change : PathMemo → PathMemo) : Deed Unit

def Deed.perform : Deed β → SessionM β
  | look => get
  | assign change => modify fun s => { s with settings := change s.settings }
  | create bound => createMemo bound
  | install number => Session.install number
  | parse text => Session.parse text
  | parseThrough number text => Session.parseThrough number text
  | edit number change => changeMemo number change

/-- A body. What comes next may depend on how the last deed or bracket ended, so
failures are passed on or put aside as it likes. -/
inductive Script : Type → Type 1 where
  | done {α : Type} (result : Except Failure α) : Script α
  | act {α β : Type} (deed : Deed β) (next : Except Failure β → Script α) : Script α
  | bracket {α β : Type} (bound : Option Int) (body : Nat → Script β)
      (next : Except Failure β → Script α) : Script α

def observe (op : SessionM β) : SessionM (Except Failure β) :=
  ExceptT.lift op.run

def Script.run : {α : Type} → Script α → SessionM α
  | _, done (.ok a) => pure a
  | _, done (.error e) => throw e
  | _, act deed next => do
    let result ← observe deed.perform
    (next result).run
  | _, bracket bound body next => do
    let result ← observe (bracketed bound fun number => (body number).run)
    (next result).run

/-- The deed is done to the memo itself. Parsing by way of the default memo names
none. -/
def Deed.Touches (n : Nat) : Deed β → Prop
  | install number => number = some n
  | parseThrough number _ => number = n
  | edit number _ => number = n
  | _ => False

/-- One of the deeds that are done, from the session on, touches the memo. -/
def Script.Touches (n : Nat) : {α : Type} → Script α → Session → Prop
  | _, done _, _ => False
  | _, act deed next, s =>
    deed.Touches n ∨
      (next (outcome deed.perform s)).Touches n (final deed.perform s)
  | _, bracket bound body next, s =>
    let inner := bracketed bound fun number => (body number).run
    (∃ number, outcome (enter bound) s = .ok number ∧
      (body number).Touches n (final (enter bound) s)) ∨
      (next (outcome inner s)).Touches n (final inner s)

section Run

theorem outcome_observe_bind (op : SessionM β) (next : Except Failure β → SessionM α)
    (s : Session) :
    outcome (observe op >>= next) s = outcome (next (outcome op s)) (final op s) := by
  rw [outcome_bind]
  rfl

theorem final_observe_bind (op : SessionM β) (next : Except Failure β → SessionM α)
    (s : Session) :
    final (observe op >>= next) s = final (next (outcome op s)) (final op s) := by
  rw [final_bind]
  rfl

theorem outcome_done (result : Except Failure α) (s : Session) :
    outcome (Script.done result).run s = result := by
  cases result <;> rfl

theorem final_done (result : Except Failure α) (s : Session) :
    final (Script.done result).run s = s := by
  cases result <;> rfl

theorem outcome_act (deed : Deed β) (next : Except Failure β → Script α) (s : Session) :
    outcome (Script.act deed next).run s =
      outcome (next (outcome deed.perform s)).run (final deed.perform s) :=
  outcome_observe_bind _ (fun result => (next result).run) s

theorem final_act (deed : Deed β) (next : Except Failure β → Script α) (s : Session) :
    final (Script.act deed next).run s =
      final (next (outcome deed.perform s)).run (final deed.perform s) :=
  final_observe_bind _ (fun result => (next result).run) s

theorem outcome_bracket (bound : Option Int) (body : Nat → Script β)
    (next : Except Failure β → Script α) (s : Session) :
    let inner := bracketed bound fun number => (body number).run
    outcome (Script.bracket bound body next).run s =
      outcome (next (outcome inner s)).run (final inner s) :=
  outcome_observe_bind _ (fun result => (next result).run) s

theorem final_bracket (bound : Option Int) (body : Nat → Script β)
    (next : Except Failure β → Script α) (s : Session) :
    let inner := bracketed bound fun number => (body number).run
    final (Script.bracket bound body next).run s =
      final (next (outcome inner s)).run (final inner s) :=
  final_observe_bind _ (fun result => (next result).run) s

end Run

section Balance

/-- The brackets that were open before are the ones that are open behind. -/
def Balanced (op : SessionM α) : Prop :=
  ∀ s, (final op s).brackets = s.brackets

theorem Balanced.bind {op : SessionM α} {f : α → SessionM β} (hop : Balanced op)
    (hf : ∀ a, Balanced (f a)) : Balanced (op >>= f) := by
  intro s
  rw [final_bind]
  cases outcome op s with
  | ok a => exact (hf a _).trans (hop s)
  | error e => exact hop s

theorem balanced_createMemo (bound : Option Int) : Balanced (createMemo bound) := by
  intro s
  rcases createMemo_cases bound s with ⟨-, -, hfinal⟩ | ⟨-, -, hfinal⟩
  · rw [hfinal]
  · rw [hfinal]

theorem balanced_defaultMemo : Balanced defaultMemo := by
  intro s
  rcases defaultMemo_cases s with
    ⟨number, -, -, hfinal⟩ | ⟨-, ⟨-, -, hfinal⟩ | ⟨-, hfinal⟩⟩
  · rw [hfinal]
  · rw [hfinal]
  · rw [hfinal]

theorem balanced_parseThrough (number : Nat) (text : String) :
    Balanced (parseThrough number text) := by
  intro s
  rcases final_parseThrough number text s with hfinal | ⟨event, hfinal⟩
  · rw [hfinal]
    rfl
  · rw [hfinal, note_brackets]
    rfl

theorem balanced_perform (deed : Deed β) : Balanced deed.perform := by
  cases deed with
  | look => exact fun _ => rfl
  | assign change => exact fun _ => rfl
  | create bound => exact balanced_createMemo bound
  | install number => exact fun _ => rfl
  | parse text =>
      refine balanced_defaultMemo.bind ?_
      intro number
      exact (balanced_parseThrough number text).bind fun _ _ => rfl
  | parseThrough number text => exact balanced_parseThrough number text
  | edit number change => exact fun _ => rfl

end Balance

section Enter

variable {bound : Option Int} {s : Session}

/-- The session behind the start of a bracket, if the default memo has the number
and the session is the one behind looking it up. -/
def opened (bound : Option Int) (number : Nat) (s : Session) : Session :=
  { s with
    settings := { s.settings with memoBound := bound }
    memos := s.memos ++ [ofBound bound]
    installed := some s.memos.length
    brackets := ⟨s.settings, number⟩ :: s.brackets }

theorem enter_cases (bound : Option Int) (s : Session) :
    (∃ e settings, outcome (enter bound) s = .error e ∧
        final (enter bound) s = { final defaultMemo s with settings } ∧
        (LegalBound bound → outcome defaultMemo s = .error e)) ∨
      ∃ number, LegalBound bound ∧ outcome defaultMemo s = .ok number ∧
        outcome (enter bound) s = .ok (final defaultMemo s).memos.length ∧
        final (enter bound) s = opened bound number (final defaultMemo s) := by
  unfold enter
  simp only [outcome_bind, final_bind, outcome_get, final_get, outcome_modify,
    final_modify]
  cases hdefault : outcome defaultMemo s with
  | error e => exact Or.inl ⟨e, _, rfl, rfl, fun _ => rfl⟩
  | ok number =>
      rcases createMemo_cases bound
        { final defaultMemo s with
          settings := { (final defaultMemo s).settings with memoBound := bound } } with
        ⟨hbound, houtcome, hfinal⟩ | ⟨hbound, houtcome, hfinal⟩
      · simp only [houtcome, hfinal]
        exact Or.inl ⟨_, _, rfl, rfl, fun hlegal => absurd hlegal hbound⟩
      · simp only [houtcome, hfinal]
        exact Or.inr ⟨number, hbound, rfl, rfl, rfl⟩

theorem legal_of_enter {number : Nat} (h : outcome (enter bound) s = .ok number) :
    LegalBound bound := by
  rcases enter_cases bound s with ⟨e, -, houtcome, -⟩ | ⟨-, hbound, -⟩
  · rw [houtcome] at h
    cases h
  · exact hbound

theorem enter_of_legal (hbound : LegalBound bound) {n : Nat}
    (hs : s.installed = some n) :
    outcome (enter bound) s = .ok s.memos.length ∧
      final (enter bound) s = opened bound n s := by
  have hdefault := defaultMemo_of_installed hs
  rcases enter_cases bound s with ⟨e, -, -, -, he⟩ | ⟨number, -, hnumber, henter⟩
  · rw [hdefault.1] at he
    cases he hbound
  · rw [hdefault.1] at hnumber
    cases hnumber
    rwa [hdefault.2] at henter

theorem final_leave {snapshot : Snapshot} {outer : List Snapshot}
    (hs : s.brackets = snapshot :: outer) :
    final leave s =
      { s with
        settings := snapshot.settings
        installed := some snapshot.installed
        brackets := outer } := by
  simp only [leave, final_modify, hs]

theorem outcome_bracketed (bound : Option Int) (body : Nat → SessionM α) (s : Session) :
    outcome (bracketed bound body) s =
      match outcome (enter bound) s with
      | .ok number => outcome (body number) (final (enter bound) s)
      | .error e => .error e := by
  rw [bracketed, outcome_bind]
  cases outcome (enter bound) s with
  | ok number => exact outcome_tryFinally _ _ _
  | error e => rfl

theorem final_bracketed (bound : Option Int) (body : Nat → SessionM α) (s : Session) :
    final (bracketed bound body) s =
      match outcome (enter bound) s with
      | .ok number => final leave (final (body number) (final (enter bound) s))
      | .error _ => final (enter bound) s := by
  rw [bracketed, final_bind]
  cases outcome (enter bound) s with
  | ok number => exact final_tryFinally _ _ _
  | error e => rfl

/-- A bracket around a balanced body leaves what the body left, but for the settings
and the default memo, which are those that the bracket found. -/
theorem final_bracketed_of_enter {body : Nat → SessionM α} {n number : Nat}
    {found : Session} (hbody : ∀ number, Balanced (body number))
    (henter : outcome (enter bound) s = .ok number)
    (hopened : final (enter bound) s = opened bound n found) :
    final (bracketed bound body) s =
      { final (body number) (final (enter bound) s) with
        settings := found.settings
        installed := some n
        brackets := found.brackets } := by
  have hinnermost : (final (body number) (final (enter bound) s)).brackets =
      ⟨found.settings, n⟩ :: found.brackets := by
    rw [hbody, hopened]
    rfl
  rw [final_bracketed, henter]
  exact final_leave hinnermost

theorem bracketed_cases (bound : Option Int) {body : Nat → SessionM α}
    (hbody : ∀ number, Balanced (body number)) (s : Session) :
    (∃ settings, final (bracketed bound body) s =
        { final defaultMemo s with settings }) ∨
      ∃ n number, outcome defaultMemo s = .ok n ∧ outcome (enter bound) s = .ok number ∧
        final (bracketed bound body) s =
          { final (body number) (final (enter bound) s) with
            settings := (final defaultMemo s).settings
            installed := some n
            brackets := (final defaultMemo s).brackets } := by
  rcases enter_cases bound s with
    ⟨e, settings, houtcome, hfinal, -⟩ | ⟨n, -, hn, houtcome, hfinal⟩
  · refine Or.inl ⟨settings, ?_⟩
    rw [final_bracketed, houtcome]
    exact hfinal
  · exact Or.inr ⟨n, _, hn, houtcome, final_bracketed_of_enter hbody houtcome hfinal⟩

theorem balanced_bracketed (bound : Option Int) {body : Nat → SessionM α}
    (hbody : ∀ number, Balanced (body number)) : Balanced (bracketed bound body) := by
  intro s
  rcases bracketed_cases bound hbody s with
    ⟨settings, hfinal⟩ | ⟨n, number, -, -, hfinal⟩
  · rw [hfinal]
    exact balanced_defaultMemo s
  · rw [hfinal]
    exact balanced_defaultMemo s

theorem balanced_run (script : Script α) : Balanced script.run := by
  induction script with
  | done result =>
      intro s
      rw [final_done]
  | act deed next ih =>
      intro s
      rw [final_act, ih]
      exact balanced_perform deed s
  | bracket bound body next ihbody ih =>
      intro s
      rw [final_bracket, ih]
      exact balanced_bracketed bound ihbody s

end Enter

section Shelf

variable {n : Nat} {memo : PathMemo} {s : Session}

/-- The memo is there and is not the default one. -/
structure Shelved (n : Nat) (memo : PathMemo) (s : Session) : Prop where
  held : s.memos[n]? = some memo
  aside : s.installed ≠ some n

theorem Shelved.lt_length (h : Shelved n memo s) : n < s.memos.length :=
  (List.getElem?_eq_some_iff.mp h.held).1

theorem Shelved.held_append (h : Shelved n memo s) (more : List PathMemo) :
    (s.memos ++ more)[n]? = some memo := by
  rw [List.getElem?_append_left h.lt_length, h.held]

theorem Shelved.length_ne (h : Shelved n memo s) : some s.memos.length ≠ some n := by
  intro hlength
  have := h.lt_length
  have := Option.some.inj hlength
  omega

theorem Shelved.createMemo (h : Shelved n memo s) (bound : Option Int) :
    Shelved n memo (final (createMemo bound) s) := by
  rcases createMemo_cases bound s with ⟨-, -, hfinal⟩ | ⟨-, -, hfinal⟩
  · rwa [hfinal]
  · rw [hfinal]
    exact ⟨h.held_append _, h.aside⟩

theorem Shelved.defaultMemo (h : Shelved n memo s) :
    Shelved n memo (final defaultMemo s) ∧
      ∀ number, outcome defaultMemo s = .ok number → number ≠ n := by
  rcases defaultMemo_cases s with
    ⟨found, hfound, houtcome, hfinal⟩ | ⟨-, ⟨-, houtcome, hfinal⟩ | ⟨houtcome, hfinal⟩⟩
  · rw [houtcome, hfinal]
    refine ⟨h, ?_⟩
    rintro number hnumber rfl
    cases hnumber
    exact h.aside hfound
  · rw [houtcome, hfinal]
    exact ⟨h, nofun⟩
  -- A default memo that is made stands behind all others, so it is another one.
  · rw [houtcome, hfinal]
    refine ⟨⟨h.held_append _, h.length_ne⟩, ?_⟩
    rintro number hnumber rfl
    cases hnumber
    exact h.length_ne rfl

theorem Shelved.setMemo (h : Shelved n memo s) {number : Nat} (hnumber : number ≠ n)
    (other : PathMemo) : Shelved n memo (s.setMemo number other) where
  held := by
    rw [Session.setMemo, List.getElem?_set_ne hnumber]
    exact h.held
  aside := h.aside

theorem Shelved.note (h : Shelved n memo s) (event : TraceEvent) :
    Shelved n memo (s.note event) where
  held := by
    rw [note_memos]
    exact h.held
  aside := by
    rw [note_installed]
    exact h.aside

theorem Shelved.parseThrough (h : Shelved n memo s) {number : Nat}
    (hnumber : number ≠ n) (text : String) :
    Shelved n memo (final (parseThrough number text) s) := by
  rcases final_parseThrough number text s with hfinal | ⟨event, hfinal⟩
  · rw [hfinal]
    exact h.setMemo hnumber _
  · rw [hfinal]
    exact (h.setMemo hnumber _).note event

theorem Shelved.parse (h : Shelved n memo s) (text : String) :
    Shelved n memo (final (parse text) s) := by
  obtain ⟨hlooked, hnumber⟩ := h.defaultMemo
  rw [Session.parse, final_bind]
  cases hdefault : outcome Session.defaultMemo s with
  | error e => exact hlooked
  | ok number =>
      have hthrough := hlooked.parseThrough (hnumber number hdefault) text
      simp only [final_bind]
      cases outcome (Session.parseThrough number text) (final Session.defaultMemo s) with
      | ok steps => exact hthrough
      | error e => exact hthrough

theorem Shelved.perform (h : Shelved n memo s) {deed : Deed β}
    (hdeed : ¬ deed.Touches n) : Shelved n memo (final deed.perform s) := by
  cases deed with
  | look => exact h
  | assign change => exact ⟨h.held, h.aside⟩
  | create bound => exact h.createMemo bound
  | install number => exact ⟨h.held, hdeed⟩
  | parse text => exact h.parse text
  | parseThrough number text => exact h.parseThrough hdeed text
  | edit number change => exact h.setMemo hdeed _

theorem Shelved.opened (h : Shelved n memo s) (bound : Option Int) (number : Nat) :
    Shelved n memo (opened bound number s) :=
  ⟨h.held_append _, h.length_ne⟩

theorem Shelved.enter (h : Shelved n memo s) (bound : Option Int) :
    Shelved n memo (final (enter bound) s) := by
  rcases enter_cases bound s with ⟨e, settings, -, hfinal, -⟩ | ⟨number, -, -, -, hfinal⟩
  · rw [hfinal]
    exact ⟨h.defaultMemo.1.held, h.defaultMemo.1.aside⟩
  · rw [hfinal]
    exact h.defaultMemo.1.opened bound number

theorem Shelved.run {script : Script α} (h : Shelved n memo s)
    (hscript : ¬ script.Touches n s) : Shelved n memo (final script.run s) := by
  induction script generalizing s with
  | done result => rwa [final_done]
  | act deed next ih =>
      obtain ⟨hdeed, hnext⟩ := not_or.mp hscript
      rw [final_act]
      exact ih _ (h.perform hdeed) hnext
  | bracket bound body next ihbody ih =>
      obtain ⟨hbody, hnext⟩ := not_or.mp hscript
      rw [final_bracket]
      refine ih _ ?_ hnext
      rcases bracketed_cases bound (fun number => balanced_run (body number)) s with
        ⟨settings, hfinal⟩ | ⟨found, number, hfound, hnumber, hfinal⟩
      · rw [hfinal]
        exact ⟨h.defaultMemo.1.held, h.defaultMemo.1.aside⟩
      · have hinner : ¬ (body number).Touches n (final (Session.enter bound) s) :=
          fun htouch => hbody ⟨number, hnumber, htouch⟩
        -- The bracket puts back the default memo that it found, not this one.
        rw [hfinal]
        refine ⟨(ihbody number (h.enter bound) hinner).held, ?_⟩
        intro heq
        exact h.defaultMemo.2 found hfound (Option.some.inj heq)

end Shelf

/-- Where a default memo exists and the bound leaves room, a bracket ends as its body does.
Behind it the settings and the default memo are those of before, and that memo holds what it
held, unless the body touched it. -/
theorem bracket_restores_session (s : Session) (n : Nat) (hn : s.installed = some n)
    (hmemo : n < s.memos.length) (bound : Option Int) (hbound : LegalBound bound)
    (body : Nat → Script α) :
    let number := s.memos.length
    let entered := final (enter bound) s
    let whole := bracketed bound fun number => (body number).run
    (outcome (enter bound) s = .ok number ∧ entered.installed = some number ∧
        entered.memos = s.memos ++ [ofBound bound]) ∧
      outcome whole s = outcome (body number).run entered ∧
      (final whole s).settings = s.settings ∧
      (final whole s).installed = some n ∧
      (final whole s).brackets = s.brackets ∧
      (¬ (body number).Touches n entered →
        (final whole s).memos[n]? = s.memos[n]?) := by
  intro number entered whole
  obtain ⟨henter, hentered⟩ : outcome (enter bound) s = .ok number ∧
      entered = opened bound n s := enter_of_legal hbound hn
  have hwhole : final whole s =
      { final (body number).run entered with
        settings := s.settings
        installed := some n
        brackets := s.brackets } :=
    final_bracketed_of_enter (fun number => balanced_run (body number)) henter hentered
  refine ⟨⟨henter, ?_, ?_⟩, ?_, ?_⟩
  · rw [hentered]
    rfl
  · rw [hentered]
    rfl
  · rw [outcome_bracketed, henter]
  · rw [hwhole]
    refine ⟨rfl, rfl, rfl, ?_⟩
    intro hbody
    have hshelved : Shelved n s.memos[n] entered := by
      rw [hentered]
      refine ⟨?_, ?_⟩
      · show (s.memos ++ [ofBound bound])[n]? = some s.memos[n]
        rw [List.getElem?_append_left hmemo, List.getElem?_eq_getElem hmemo]
      · show some s.memos.length ≠ some n
        intro hlength
        have := Option.some.inj hlength
        omega
    rw [List.getElem?_eq_getElem hmemo]
    exact (hshelved.run hbody).held

/-- The body changes the settings, drops its memo and has another made, fails to open
a bracket, opens one in which its memo is installed and asked for a text that cannot
be read, clears that memo and fails. -/
theorem bracket_restores_session_behind_failing_body :
    let held : PathMemo := ⟨[("b", [.key "b"]), ("a", [.key "a"])], 4, 2, some 3⟩
    let settings : Settings := ⟨some 3, "INFO", true⟩
    let s : Session := { settings, memos := [held], installed := some 0 }
    let failure : Failure := .stated .general ["stop"]
    let body : Nat → Script Unit := fun number =>
      .act (.assign fun _ => ⟨some 7, "DEBUG", false⟩) fun _ =>
      .act (.install none) fun _ =>
      .act (.parse "a") fun _ =>
      .bracket (some 0) (fun _ => .act (.install (some 0)) .done) fun _ =>
      .bracket none (fun _ =>
        .act (.install (some number)) fun _ => .act (.parse "a[") .done) fun _ =>
      .act (.edit number Memo.clear) fun _ =>
      .done (.error failure)
    let whole := bracketed (some 1) fun number => (body number).run
    LegalBound (some 1) ∧ ¬ (body 1).Touches 0 (final (enter (some 1)) s) ∧
      outcome whole s = .error failure ∧ (final whole s).settings = settings ∧
      (final whole s).installed = some 0 ∧ (final whole s).brackets = [] ∧
      (final whole s).memos[0]? = some held := by
  intro held settings s failure body whole
  have hbound : LegalBound (some 1) := by
    rintro n ⟨⟩
    decide
  have hbody : ¬ (body 1).Touches 0 (final (enter (some 1)) s) := by
    have hfails : ∀ t number, outcome (enter (some 0)) t ≠ .ok number :=
      fun t number henter => absurd (legal_of_enter henter) (by simp [LegalBound])
    simp [body, Script.Touches, Deed.Touches, hfails]
  obtain ⟨-, houtcome, hsettings, hinstalled, hbrackets, hmemo⟩ :=
    bracket_restores_session s 0 rfl (by decide) (some 1) hbound body
  refine ⟨hbound, hbody, ?_, hsettings, hinstalled, hbrackets, hmemo hbody⟩
  rw [houtcome]
  simp only [body, outcome_act, outcome_bracket, outcome_done]

end TreePath.Bracket
