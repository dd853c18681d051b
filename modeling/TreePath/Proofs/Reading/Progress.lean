import TreePath.Proofs.Reading.Quoting
import TreePath.Proofs.Reading.Seam

namespace TreePath.Progress

open TreePath.Acceptance
open TreePath.Loop
open TreePath.Quoting
open TreePath.Reading
open TreePath.Seam

section Position

variable {text s rest : List Char} {p : Nat} {step : Step}

theorem exists_position_of_taken (h : Taken (text.drop p) rest) :
    ∃ q, p < q ∧ q ≤ text.length ∧ rest = text.drop q := by
  obtain ⟨hsuffix, hlength⟩ := h
  have htext := List.suffix_iff_eq_drop.mp (hsuffix.trans (List.drop_suffix p text))
  rw [List.length_drop] at hlength
  exact ⟨text.length - rest.length, by omega, Nat.sub_le _ _, htext⟩

theorem taken_of_readStep (h : readStep s = .ok (step, rest)) : Taken s rest := by
  obtain ⟨front, rfl, -⟩ := exists_front_of_readStep h
  exact ⟨List.suffix_append front rest, length_lt_of_readStep h⟩

theorem readStep_drop_cases (text : List Char) (p : Nat) :
    (∃ h, readStep (text.drop p) = .error h) ∨
      ∃ step q, p < q ∧ q ≤ text.length ∧ readStep (text.drop p) = .ok (step, text.drop q) := by
  cases hread : readStep (text.drop p) with
  | error h => exact Or.inl ⟨h, rfl⟩
  | ok r =>
      obtain ⟨step, rest⟩ := r
      obtain ⟨q, hlt, hle, rfl⟩ := exists_position_of_taken (taken_of_readStep hread)
      exact Or.inr ⟨step, q, hlt, hle, rfl⟩

/-- A turn that goes round again does so from a place further on in the text. -/
def Advances {ρ : Type} (text : List Char) (p : Nat) : Turn Cursor ρ → Prop
  | .again c => ∃ q, p < q ∧ q ≤ text.length ∧ c.rest = text.drop q
  | .leave _ => True

theorem advances_of_escapeTurn {name : List Char} {out : Turn Cursor Cursor}
    (h : EscapeTurn ⟨name, text.drop p⟩ out) : Advances text p out := by
  cases out with
  | again c => exact exists_position_of_taken (taken_of_escapeTurn h)
  | leave c => trivial

theorem advances_of_keyTurn {name : List Char}
    {out : Turn Cursor (Option (List Char × List Char))}
    (h : KeyTurn ⟨name, text.drop p⟩ out) : Advances text p out := by
  cases out with
  | again c => exact exists_position_of_taken (taken_of_keyTurn h)
  | leave r => trivial

theorem exists_escapes_drop (text name : List Char) (p : Nat) :
    ∃ n c, n ≤ text.length - p + 1 ∧ Leaves EscapeTurn ⟨name, text.drop p⟩ n c := by
  obtain ⟨n, c, hn, hrun⟩ := exists_escapes ⟨name, text.drop p⟩
  rw [List.length_drop] at hn
  exact ⟨n, c, hn, hrun⟩

theorem exists_keyTurns_drop (text : List Char) (p : Nat) :
    ∃ n, n ≤ text.length - p + 1 ∧
      Leaves KeyTurn ⟨[], text.drop p⟩ n (unquote? (text.drop p)) := by
  obtain ⟨n, r, hn, hrun⟩ := exists_keyTurns ⟨[], text.drop p⟩
  have hkey : r = unquote? (text.drop p) := (eq_key?_of_leaves hrun).trans Option.map_id'
  rw [List.length_drop] at hn
  exact ⟨n, hn, hkey ▸ hrun⟩

end Position

section Run

variable {text s rest : List Char} {p e : Nat} {step : Step} {steps : List Step}

/-- A turn of the run over a text, from the steps that were read and the text that is
left. -/
inductive StepTurn : List Step × List Char →
    Turn (List Step × List Char) (List Step × Ending) → Prop where
  | exhausted {steps : List Step} : StepTurn (steps, []) (.leave (steps, .exhausted))
  | halted {steps : List Step} {s : List Char} {h : Halt} (hs : s ≠ [])
      (hread : readStep s = .error h) : StepTurn (steps, s) (.leave (steps, .halted h))
  | step {steps : List Step} {s rest : List Char} {step : Step} (hs : s ≠ [])
      (hread : readStep s = .ok (step, rest)) :
      StepTurn (steps, s) (.again (steps ++ [step], rest))

theorem exists_stepTurn (now : List Step × List Char) : ∃ out, StepTurn now out := by
  obtain ⟨steps, s⟩ := now
  by_cases hs : s = []
  · rw [hs]
    exact ⟨_, .exhausted⟩
  · cases hread : readStep s with
    | error h => exact ⟨_, .halted hs hread⟩
    | ok r => exact ⟨_, .step hs hread⟩

theorem StepTurn.unique {now : List Step × List Char}
    {out other : Turn (List Step × List Char) (List Step × Ending)}
    (h : StepTurn now out) (hother : StepTurn now other) : other = out := by
  cases h with
  | exhausted =>
      cases hother with
      | exhausted => rfl
      | halted hs => exact absurd rfl hs
      | step hs => exact absurd rfl hs
  | halted hs hread =>
      cases hother with
      | exhausted => exact absurd rfl hs
      | halted _ hread' =>
          cases hread.symm.trans hread'
          rfl
      | step _ hread' => cases hread.symm.trans hread'
  | step hs hread =>
      cases hother with
      | exhausted => exact absurd rfl hs
      | halted _ hread' => cases hread.symm.trans hread'
      | step _ hread' =>
          cases hread.symm.trans hread'
          rfl

theorem stepTurn_definite : Definite StepTurn :=
  .intro exists_stepTurn StepTurn.unique

theorem leaves_pull (s : List Char) (steps : List Step) :
    Leaves StepTurn (steps, s) ((pull none s).1.length + 1)
      (steps ++ (pull none s).1, (pull none s).2) := by
  induction s using readAll.induct generalizing steps with
  | case1 s hs =>
      rw [List.isEmpty_iff.mp hs, pull_nil, List.append_nil]
      exact .leave .exhausted
  | case2 s hs h hread =>
      have hne : s ≠ [] := by rwa [List.isEmpty_iff] at hs
      rw [pull_of_error hne hread, List.append_nil]
      exact .leave (.halted hne hread)
  | case3 s hs step rest hread ih =>
      have hne : s ≠ [] := by rwa [List.isEmpty_iff] at hs
      have hrest := ih (steps ++ [step])
      rw [List.append_assoc, List.singleton_append] at hrest
      rw [pull_of_readStep hread]
      exact .again (.step hne hread) hrest

/-- Steps that are read one behind the other between two places of a text, each with the
slice of the text that it took. -/
inductive Tiles (text : List Char) : Nat → List (Step × List Char) → Nat → Prop where
  | nil (p : Nat) : Tiles text p [] p
  | cons {p e : Nat} {step : Step} {slice : List Char} {tiles : List (Step × List Char)}
      (hslice : text.drop p = slice ++ text.drop (p + slice.length)) (hne : slice ≠ [])
      (hread : readStep (text.drop p) = .ok (step, text.drop (p + slice.length)))
      (hrest : Tiles text (p + slice.length) tiles e) : Tiles text p ((step, slice) :: tiles) e

variable {tiles : List (Step × List Char)}

/-- The slices of the tiles, one behind the other. -/
def covered (tiles : List (Step × List Char)) : List Char :=
  tiles.flatMap (·.2)

theorem covered_cons {slice : List Char} :
    covered ((step, slice) :: tiles) = slice ++ covered tiles :=
  rfl

theorem Tiles.drop_eq (h : Tiles text p tiles e) :
    text.drop p = covered tiles ++ text.drop e := by
  induction h with
  | nil p => rfl
  | cons hslice _ _ _ ih =>
      rw [hslice, ih, covered_cons, List.append_assoc]

theorem Tiles.ne_nil (h : Tiles text p tiles e) : ∀ tile ∈ tiles, tile.2 ≠ [] := by
  induction h with
  | nil p =>
      intro tile htile
      cases htile
  | cons _ hne _ _ ih => exact List.forall_mem_cons.mpr ⟨hne, ih⟩

theorem Tiles.length_le (h : Tiles text p tiles e) : tiles.length ≤ (covered tiles).length := by
  induction h with
  | nil p => exact Nat.le_refl 0
  | @cons _ _ _ slice _ _ hne _ _ ih =>
      have hslice : 0 < slice.length := List.length_pos_iff.mpr hne
      rw [covered_cons, List.length_append, List.length_cons]
      omega

/-- What is true of a run where it ends: the text is used up, or its next step cannot be
read. -/
def EndsAt (s : List Char) : Ending → Prop
  | .exhausted => s = []
  | .halted h => s ≠ [] ∧ readStep s = .error h
  | .taken => False

theorem exists_tiles (text : List Char) (hs : text.drop p = s) :
    ∃ tiles e, Tiles text p tiles e ∧ tiles.map (·.1) = (pull none s).1 ∧
      EndsAt (text.drop e) (pull none s).2 := by
  induction s using readAll.induct generalizing p with
  | case1 s hempty =>
      rw [List.isEmpty_iff] at hempty
      rw [hempty, pull_nil]
      exact ⟨[], p, .nil p, rfl, hs.trans hempty⟩
  | case2 s hne h hread =>
      rw [List.isEmpty_iff] at hne
      rw [pull_of_error hne hread]
      exact ⟨[], p, .nil p, rfl, hs ▸ ⟨hne, hread⟩⟩
  | case3 s _ step rest hread ih =>
      obtain ⟨slice, hslice, hne, -⟩ := exists_front_of_readStep hread
      have hrest : text.drop (p + slice.length) = rest := by
        rw [← List.drop_drop, hs, hslice, List.drop_left]
      obtain ⟨tiles, e, htiles, hsteps, hend⟩ := ih hrest
      subst hs
      rw [← hrest] at hslice hread
      rw [pull_of_readStep hread, hrest]
      exact ⟨(step, slice) :: tiles, e, .cons hslice hne hread htiles,
        congrArg (step :: ·) hsteps, hend⟩

end Run

/-- From any place reading a step halts or comes further on, and so does each turn of the
loops over a quoted key, or leaves them. So a run ends, and its steps took slices of the
text without a gap, from its start up to where the run ends. -/
theorem reading_advances_and_tiles (text : List Char) :
    (∀ p, (∃ h, readStep (text.drop p) = .error h) ∨
      ∃ step q, p < q ∧ q ≤ text.length ∧ readStep (text.drop p) = .ok (step, text.drop q)) ∧
    (Definite EscapeTurn ∧ Definite KeyTurn ∧ ∀ p name,
      (∀ out, EscapeTurn ⟨name, text.drop p⟩ out → Advances text p out) ∧
      (∀ out, KeyTurn ⟨name, text.drop p⟩ out → Advances text p out) ∧
      (∃ n c, n ≤ text.length - p + 1 ∧ Leaves EscapeTurn ⟨name, text.drop p⟩ n c) ∧
      ∃ n, n ≤ text.length - p + 1 ∧
        Leaves KeyTurn ⟨[], text.drop p⟩ n (unquote? (text.drop p))) ∧
    (Definite StepTurn ∧
      Leaves StepTurn ([], text) ((pull none text).1.length + 1) (pull none text)) ∧
    (pull none text).1.length ≤ text.length ∧
    ∃ tiles e, Tiles text 0 tiles e ∧ tiles.map (·.1) = (pull none text).1 ∧
      (∀ tile ∈ tiles, tile.2 ≠ []) ∧ text = covered tiles ++ text.drop e ∧
      ((pull none text).2 = .exhausted ∧ covered tiles = text ∨
        ∃ h, (pull none text).2 = .halted h ∧ e < text.length ∧
          readStep (text.drop e) = .error h) := by
  obtain ⟨tiles, e, htiles, hsteps, hend⟩ := exists_tiles text (List.drop_zero (l := text))
  have htext : text = covered tiles ++ text.drop e := htiles.drop_eq
  refine ⟨readStep_drop_cases text, ⟨escapeTurn_definite, keyTurn_definite, ?_⟩,
    ⟨stepTurn_definite, leaves_pull text []⟩, ?_, tiles, e, htiles, hsteps, htiles.ne_nil,
    htext, ?_⟩
  · intro p name
    exact ⟨fun _ => advances_of_escapeTurn, fun _ => advances_of_keyTurn,
      exists_escapes_drop text name p, exists_keyTurns_drop text p⟩
  · calc (pull none text).1.length
      _ = tiles.length := by rw [← hsteps, List.length_map]
      _ ≤ (covered tiles).length := htiles.length_le
      _ ≤ text.length := by
        conv_rhs => rw [htext]
        rw [List.length_append]
        exact Nat.le_add_right _ _
  · cases hending : (pull none text).2 with
    | exhausted =>
        rw [hending] at hend
        have hall : text.drop e = [] := hend
        rw [hall, List.append_nil] at htext
        exact Or.inl ⟨rfl, htext.symm⟩
    | halted h =>
        rw [hending] at hend
        exact Or.inr ⟨h, rfl, Nat.lt_of_not_le fun hle => hend.1 (List.drop_eq_nil_of_le hle),
          hend.2⟩
    | taken =>
        rw [hending] at hend
        exact hend.elim

theorem reading_advances_and_tiles_at_lone_backtick :
    let text := "a.['b\x60".toList
    let out : Turn Cursor (Option (List Char × List Char)) := .again ⟨['b', backtick], []⟩
    KeyTurn ⟨[], text.drop 4⟩ out ∧ Advances text 4 out ∧
      ∃ n, n ≤ 3 ∧ Leaves KeyTurn ⟨[], text.drop 4⟩ n none := by
  intro text out
  have hrun : Leaves EscapeTurn ⟨['b'], [backtick]⟩ 2 ⟨['b', backtick], []⟩ :=
    .again (.lone (Grammar.clear_nil _)) (.leave (.leave nofun))
  have hturn : KeyTurn ⟨[], text.drop 4⟩ out := .unclosed nofun hrun nofun
  obtain ⟨-, ⟨-, -, hkey⟩, -⟩ := reading_advances_and_tiles text
  obtain ⟨-, hadvances, -, hleaves⟩ := hkey 4 []
  exact ⟨hturn, hadvances out hturn, hleaves⟩

end TreePath.Progress
