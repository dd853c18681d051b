import TreePath.Proofs.Loop
import TreePath.Proofs.Reading.Leaf

/-!
A quoted key, read by two loops. The outer one takes what stands up to a backtick or a
quote, then the inner one takes the backticks there with what they escape; a quote
closes the key, and else the outer loop goes round again.
-/

namespace TreePath.Quoting

open TreePath.Grammar
open TreePath.Leaf
open TreePath.Loop
open TreePath.Reading

/-- The rest is what is left of a text when some of its characters are taken. -/
def Taken (s rest : List Char) : Prop :=
  rest <:+ s ∧ rest.length < s.length

theorem Taken.of_suffix {s rest more : List Char} (h : Taken s rest) (hmore : more <:+ rest) :
    Taken s more :=
  ⟨hmore.trans h.1, Nat.lt_of_le_of_lt hmore.length_le h.2⟩

/-- What was read of a key, and what is left of the text. -/
structure Cursor where
  name : List Char
  rest : List Char

/-- What a quoted key is read as in the end, behind what was read of it. -/
def Cursor.key? (c : Cursor) : Option (List Char × List Char) :=
  (unquote? c.rest).map fun r => (c.name ++ r.1, r.2)

theorem Cursor.key?_eq {name taken rest more : List Char}
    (h : unquote? rest = (unquote? more).map fun r => (taken ++ r.1, r.2)) :
    Cursor.key? ⟨name, rest⟩ = Cursor.key? ⟨name ++ taken, more⟩ := by
  rw [Cursor.key?, Cursor.key?, h, Option.map_map]
  simp only [Function.comp_def, List.append_assoc]

section Escapes

/-- A turn of the inner loop. It leaves where no backtick stands. -/
inductive EscapeTurn : Cursor → Turn Cursor Cursor → Prop where
  | pair {c : Char} {name rest : List Char} (hc : IsEscapable c) :
      EscapeTurn ⟨name, backtick :: c :: rest⟩ (.again ⟨name ++ [c], rest⟩)
  | lone {name rest : List Char} (hrest : Clear IsEscapable rest) :
      EscapeTurn ⟨name, backtick :: rest⟩ (.again ⟨name ++ [backtick], rest⟩)
  | leave {c : Cursor} (hc : c.rest.head? ≠ some backtick) : EscapeTurn c (.leave c)

variable {c d : Cursor} {n : Nat}

theorem exists_escapeTurn (c : Cursor) : ∃ out, EscapeTurn c out := by
  by_cases htick : c.rest.head? = some backtick
  · obtain ⟨name, rest⟩ := c
    obtain ⟨more, rfl⟩ := List.head?_eq_some_iff.mp htick
    cases more with
    | nil => exact ⟨_, .lone (clear_nil IsEscapable)⟩
    | cons c more =>
        by_cases hc : IsEscapable c
        · exact ⟨_, .pair hc⟩
        · exact ⟨_, .lone (clear_cons_iff.mpr hc)⟩
  · exact ⟨_, .leave htick⟩

theorem EscapeTurn.unique {out other : Turn Cursor Cursor} (h : EscapeTurn c out)
    (hother : EscapeTurn c other) : other = out := by
  cases h with
  | pair hc =>
      cases hother with
      | pair => rfl
      | lone hrest => exact absurd hc (clear_cons_iff.mp hrest)
      | leave htick => exact absurd rfl htick
  | lone hrest =>
      cases hother with
      | pair hc => exact absurd hc (clear_cons_iff.mp hrest)
      | lone => rfl
      | leave htick => exact absurd rfl htick
  | leave htick =>
      cases hother with
      | pair => exact absurd rfl htick
      | lone => exact absurd rfl htick
      | leave => rfl

theorem escapeTurn_definite : Definite EscapeTurn :=
  .intro exists_escapeTurn EscapeTurn.unique

theorem taken_of_escapeTurn (h : EscapeTurn c (.again d)) : Taken c.rest d.rest := by
  cases h with
  | @pair c name rest hc =>
      exact ⟨List.suffix_append [backtick, c] rest, Nat.lt_add_of_pos_right Nat.two_pos⟩
  | @lone name rest hrest =>
      exact ⟨List.suffix_cons backtick rest, Nat.lt_succ_self _⟩

theorem key?_of_escapeTurn (h : EscapeTurn c (.again d)) : c.key? = d.key? := by
  cases h with
  | pair hc => exact Cursor.key?_eq (unquote?_pair hc _)
  | lone hrest => exact Cursor.key?_eq (unquote?_lone hrest)

theorem key?_of_escapeTurn_leave (h : EscapeTurn c (.leave d)) : c.key? = d.key? := by
  cases h
  rfl

theorem exists_escapes (c : Cursor) : ∃ n d, n ≤ c.rest.length + 1 ∧ Leaves EscapeTurn c n d :=
  exists_leaves escapeTurn_definite (fun c => c.rest.length)
    (fun _ _ h => (taken_of_escapeTurn h).2) c

theorem escapes_cases (h : Leaves EscapeTurn c n d) :
    d = c ∧ c.rest.head? ≠ some backtick ∨ Taken c.rest d.rest := by
  induction h with
  | leave h =>
      cases h with
      | leave htick => exact Or.inl ⟨rfl, htick⟩
  | again h _ ih =>
      rcases ih with ⟨rfl, -⟩ | htaken
      · exact Or.inr (taken_of_escapeTurn h)
      · exact Or.inr ((taken_of_escapeTurn h).of_suffix htaken.1)

theorem key?_of_escapes (h : Leaves EscapeTurn c n d) : c.key? = d.key? :=
  h.value_eq (fun _ _ => key?_of_escapeTurn) fun _ _ => key?_of_escapeTurn_leave

end Escapes

section Key

def isPlain (c : Char) : Bool :=
  !(c == backtick || c == Text.singleQuote)

theorem isPlain_iff {c : Char} : isPlain c = true ↔ ¬ IsEscapable c := by
  simp [isPlain, IsEscapable]

/-- Takes what stands up to a backtick or a quote. -/
def takePlain (c : Cursor) : Cursor :=
  ⟨c.name ++ c.rest.takeWhile isPlain, c.rest.dropWhile isPlain⟩

/-- A turn of the outer loop, with a whole run of the inner one. It leaves with the key
and what follows its closing quote, or with nothing at the end of the text. -/
inductive KeyTurn : Cursor → Turn Cursor (Option (List Char × List Char)) → Prop where
  | exhausted {c : Cursor} (hc : c.rest = []) : KeyTurn c (.leave none)
  | closed {c : Cursor} {n : Nat} {name rest : List Char} (hc : c.rest ≠ [])
      (hrun : Leaves EscapeTurn (takePlain c) n ⟨name, Text.singleQuote :: rest⟩) :
      KeyTurn c (.leave (some (name, rest)))
  | unclosed {c d : Cursor} {n : Nat} (hc : c.rest ≠ [])
      (hrun : Leaves EscapeTurn (takePlain c) n d)
      (hquote : d.rest.head? ≠ some Text.singleQuote) : KeyTurn c (.again d)

variable {c d : Cursor} {n : Nat} {r : Option (List Char × List Char)}

theorem exists_keyTurn (c : Cursor) : ∃ out, KeyTurn c out := by
  by_cases hc : c.rest = []
  · exact ⟨_, .exhausted hc⟩
  · obtain ⟨n, ⟨name, rest⟩, -, hrun⟩ := exists_escapes (takePlain c)
    by_cases hquote : rest.head? = some Text.singleQuote
    · obtain ⟨more, rfl⟩ := List.head?_eq_some_iff.mp hquote
      exact ⟨_, .closed hc hrun⟩
    · exact ⟨_, .unclosed hc hrun hquote⟩

theorem KeyTurn.unique {out other : Turn Cursor (Option (List Char × List Char))}
    (h : KeyTurn c out) (hother : KeyTurn c other) : other = out := by
  cases h with
  | exhausted hc =>
      cases hother with
      | exhausted => rfl
      | closed hc' => exact absurd hc hc'
      | unclosed hc' => exact absurd hc hc'
  | closed hc hrun =>
      cases hother with
      | exhausted hc' => exact absurd hc' hc
      | closed _ hrun' =>
          cases (hrun.unique escapeTurn_definite hrun').2
          rfl
      | unclosed _ hrun' hquote =>
          rw [← (hrun.unique escapeTurn_definite hrun').2] at hquote
          exact absurd rfl hquote
  | unclosed hc hrun hquote =>
      cases hother with
      | exhausted hc' => exact absurd hc' hc
      | closed _ hrun' =>
          rw [(hrun.unique escapeTurn_definite hrun').2] at hquote
          exact absurd rfl hquote
      | unclosed _ hrun' => rw [(hrun.unique escapeTurn_definite hrun').2]

theorem keyTurn_definite : Definite KeyTurn :=
  .intro exists_keyTurn KeyTurn.unique

theorem taken_takePlain (hc : c.rest ≠ []) (htick : (takePlain c).rest.head? ≠ some backtick)
    (hquote : (takePlain c).rest.head? ≠ some Text.singleQuote) :
    Taken c.rest (takePlain c).rest := by
  obtain ⟨name, _ | ⟨d, rest⟩⟩ := c
  · exact absurd rfl hc
  · dsimp only [takePlain] at htick hquote ⊢
    rw [List.dropWhile_cons] at htick hquote ⊢
    split at htick
    · rename_i hd
      rw [if_pos hd]
      have hrest : rest.dropWhile isPlain <:+ rest := List.dropWhile_suffix isPlain
      exact ⟨hrest.trans (List.suffix_cons d rest), Nat.lt_succ_of_le hrest.length_le⟩
    · rename_i hd
      rw [if_neg hd] at hquote
      rw [isPlain_iff, not_not] at hd
      rcases hd with rfl | rfl
      · exact absurd rfl htick
      · exact absurd rfl hquote

/-- The outer loop does not go round in place: where nothing stands before a backtick or
a quote, a backtick is taken by the inner loop, and a quote would have closed the key. -/
theorem taken_of_keyTurn (h : KeyTurn c (.again d)) : Taken c.rest d.rest := by
  cases h with
  | unclosed hc hrun hquote =>
      rcases escapes_cases hrun with ⟨rfl, htick⟩ | htaken
      · exact taken_takePlain hc htick hquote
      · have hplain : (takePlain c).rest <:+ c.rest := List.dropWhile_suffix isPlain
        exact ⟨htaken.1.trans hplain, Nat.lt_of_lt_of_le htaken.2 hplain.length_le⟩

theorem exists_keyTurns (c : Cursor) : ∃ n r, n ≤ c.rest.length + 1 ∧ Leaves KeyTurn c n r :=
  exists_leaves keyTurn_definite (fun c => c.rest.length) (fun _ _ h => (taken_of_keyTurn h).2) c

theorem key?_takePlain (c : Cursor) : (takePlain c).key? = c.key? := by
  have hplain : ∀ d ∈ c.rest.takeWhile isPlain, ¬ IsEscapable d :=
    of_mem_takeWhile fun _ => isPlain_iff
  have hkey := unquote?_append_of_plain hplain (c.rest.dropWhile isPlain)
  rw [List.takeWhile_append_dropWhile] at hkey
  exact (Cursor.key?_eq hkey).symm

theorem key?_of_keyTurn (h : KeyTurn c (.again d)) : c.key? = d.key? := by
  cases h with
  | unclosed hc hrun hquote => rw [← key?_takePlain, key?_of_escapes hrun]

theorem key?_of_keyTurn_leave (h : KeyTurn c (.leave r)) : c.key? = r := by
  cases h with
  | exhausted hc =>
      rw [Cursor.key?, hc]
      rfl
  | closed hc hrun =>
      rw [← key?_takePlain, key?_of_escapes hrun, Cursor.key?, Text.singleQuote, unquote?,
        Option.map_some, List.append_nil]

theorem eq_key?_of_leaves (h : Leaves KeyTurn c n r) : r = c.key? :=
  (h.value_eq (fun _ _ => key?_of_keyTurn) fun _ _ => key?_of_keyTurn_leave).symm

end Key

end TreePath.Quoting
