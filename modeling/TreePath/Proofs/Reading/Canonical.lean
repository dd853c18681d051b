import TreePath.Proofs.Reading.Concatenation
import TreePath.Proofs.Reading.Numeral

namespace TreePath.Canonical

open TreePath.Acceptance
open TreePath.Concatenation
open TreePath.Grammar
open TreePath.Reading
open TreePath.RoundTrip
open TreePath.Seam
open TreePath.Session (outcome)

/-- Read from the left, every backtick is the first of a pair with a quote or a
backtick, or the second one of such a pair. -/
inductive Paired : List Char → Prop where
  | nil : Paired []
  | pair {c : Char} {raw : List Char} (hc : IsEscapable c) (hraw : Paired raw) :
      Paired (backtick :: c :: raw)
  | plain {c : Char} {raw : List Char} (hc : c ≠ backtick) (hraw : Paired raw) :
      Paired (c :: raw)

/-- A number between the brackets is in shortest form, and in a quoted key all
backticks are paired. -/
structure CanonicalBody (body : List Char) : Prop where
  number : ∀ n : Numeral, n.digits ≠ [] → (∀ c ∈ n.digits, IsDigit c) →
    n.toList = body → n.Shortest
  quoted : ∀ raw, Text.singleQuote :: (raw ++ [Text.singleQuote]) = body → Paired raw

/-- A step as it is written in a text, and the number of dots behind it. -/
structure Piece where
  text : List Char
  step : Step
  dots : Nat

/-- The step is written in brackets, with no dot behind it, and what stands between
the brackets has nothing in it that reading forgets. -/
def Piece.IsCanonical (piece : Piece) : Prop :=
  piece.dots = 0 ∧ ∃ body, piece.text = '[' :: (body ++ [']']) ∧ CanonicalBody body

/-- A path text, cut into the steps that it is written of. -/
inductive Segmented : List Char → List Piece → Prop where
  | nil : Segmented [] []
  | cons {rest : List Char} {pieces : List Piece} (piece : Piece)
      (hstep : Spells (dots piece.dots ++ rest) piece.text piece.step)
      (hrest : Segmented rest pieces) :
      Segmented (piece.text ++ (dots piece.dots ++ rest)) (piece :: pieces)

section Body

variable {raw name body : List Char} {n : Numeral} {step : Step}

theorem paired_escapeKey (name : List Char) : Paired (escapeKey name) := by
  induction name with
  | nil => exact .nil
  | cons c name ih =>
      by_cases hc : c = backtick ∨ c = Text.singleQuote
      · rw [escapeKey_cons_of_escapable hc]
        exact .pair hc ih
      · rw [escapeKey_cons_of_plain hc]
        exact .plain (fun h => hc (Or.inl h)) ih

theorem escapeKey_of_paired (h : Quotes raw name) (hpaired : Paired raw) :
    escapeKey name = raw := by
  induction h with
  | nil => rfl
  | @pair c raw name hc _ ih =>
      rw [escapeKey_cons_of_escapable hc]
      cases hpaired with
      | pair _ hraw => rw [ih hraw]
      | plain hbacktick _ => exact absurd rfl hbacktick
  | lone hc _ _ =>
      cases hpaired with
      | pair hescapable _ => exact absurd hescapable hc
      | plain hbacktick _ => exact absurd rfl hbacktick
  | @plain c raw name hc _ ih =>
      rw [escapeKey_cons_of_plain hc]
      cases hpaired with
      | pair _ _ => exact absurd (Or.inl rfl) hc
      | plain _ hraw => rw [ih hraw]

theorem paired_iff (h : Quotes raw name) : Paired raw ↔ escapeKey name = raw := by
  refine ⟨escapeKey_of_paired h, ?_⟩
  rintro rfl
  exact paired_escapeKey name

theorem canonicalBody_number_iff (hne : n.digits ≠ [])
    (hdigits : ∀ c ∈ n.digits, IsDigit c) : CanonicalBody n.toList ↔ n.Shortest := by
  refine ⟨fun h => h.number n hne hdigits rfl, fun h => ⟨?_, ?_⟩⟩
  · intro m _ hm htext
    rw [toList_injective_of_isDigit hm hdigits htext]
    exact h
  · intro raw htext
    exact absurd htext.symm (toList_ne_of_front (by decide) (by decide) _ hdigits)

theorem canonicalBody_here : CanonicalBody ['s', 'e', 'l', 'f'] where
  number := fun _ _ hdigits htext =>
    absurd htext (toList_ne_of_front (by decide) (by decide) _ hdigits)
  quoted := fun _ htext => absurd (List.cons.inj htext).1 (by decide)

theorem canonicalBody_quoted_iff :
    CanonicalBody (Text.singleQuote :: (raw ++ [Text.singleQuote])) ↔ Paired raw := by
  refine ⟨fun h => h.quoted raw rfl, fun h => ⟨?_, ?_⟩⟩
  · intro n _ hdigits htext
    exact absurd htext (toList_ne_of_front (by decide) (by decide) _ hdigits)
  · intro other htext
    rw [List.append_cancel_right (List.cons.inj htext).2]
    exact h

theorem write_eq_iff_of_body (h : Body body step) :
    step.write = '[' :: (body ++ [']']) ↔ CanonicalBody body := by
  cases h with
  | @number n i hne hdigits hi =>
      rw [canonicalBody_number_iff hne hdigits, Numeral.shortest_iff hdigits hne, ← hi,
        Step.write, List.cons_inj_right, List.append_cancel_right_eq]
  | here => exact iff_of_true rfl canonicalBody_here
  | @quoted raw name hraw =>
      rw [canonicalBody_quoted_iff, paired_iff hraw, Step.write, writeKey,
        String.toList_ofList, List.cons_inj_right, List.cons_append, List.cons_inj_right,
        List.append_assoc, List.singleton_append, List.append_cancel_right_eq]

end Body

section Piece

variable {text rest : List Char} {step : Step} {steps : List Step} {pieces : List Piece}
  {k : Nat}

theorem write_eq_iff_of_spells (h : Spells rest text step) :
    step.write = text ↔ ∃ body, text = '[' :: (body ++ [']']) ∧ CanonicalBody body := by
  cases h with
  | @identifier c cs hc _ _ =>
      have hopen : c ≠ '[' := by
        rintro rfl
        exact absurd hc (by decide)
      refine iff_of_false ?_ ?_
      · obtain ⟨body, htext, -, -⟩ := exists_body_write (.key (String.ofList (c :: cs)))
        rw [htext]
        exact fun h => hopen (List.cons.inj h).1.symm
      · rintro ⟨body, htext, -⟩
        exact hopen (List.cons.inj htext).1
  | @subscript body _ hbody =>
      rw [write_eq_iff_of_body hbody]
      constructor
      · exact fun h => ⟨body, rfl, h⟩
      · rintro ⟨other, htext, hother⟩
        rwa [List.append_cancel_right (List.cons.inj htext).2]

theorem write_eq_append_dots_iff :
    step.write = text ++ dots k ↔ k = 0 ∧ step.write = text := by
  cases k with
  | zero =>
      rw [dots, List.replicate_zero, List.append_nil]
      exact (and_iff_right rfl).symm
  | succ k =>
      refine iff_of_false ?_ (fun h => absurd h.1 (Nat.succ_ne_zero k))
      obtain ⟨body, htext, -, -⟩ := exists_body_write step
      intro h
      rw [htext, dots, List.replicate_succ', ← List.append_assoc] at h
      have hlast := congrArg List.getLast? h
      rw [← List.cons_append, List.getLast?_concat, List.getLast?_concat] at hlast
      exact absurd (Option.some.inj hlast) (by decide)

theorem isCanonical_iff {piece : Piece} (h : Spells rest piece.text piece.step) :
    piece.IsCanonical ↔ piece.step.write = piece.text ++ dots piece.dots := by
  rw [write_eq_append_dots_iff, write_eq_iff_of_spells h]
  exact Iff.rfl

theorem readStep_of_readAll (h : Spells (dots k ++ rest) text step)
    (hrest : Clear (· = '.') rest)
    (hread : readAll (text ++ (dots k ++ rest)) = .ok steps) :
    readStep (text ++ (dots k ++ rest)) = .ok (step, rest) := by
  have hne : text ≠ [] := by
    cases h <;> exact nofun
  obtain ⟨found, after, hfirst⟩ :=
    exists_readStep_of_readAll (List.append_ne_nil_of_left_ne_nil hne _) hread
  exact readStep_of_spells h (legible_of_readStep h hfirst) hrest

end Piece

section Text

variable {text : List Char} {steps : List Step} {pieces : List Piece}

theorem written_of_segmented (h : Segmented text pieces) :
    Written text (pieces.map (·.step)) := by
  induction h with
  | nil => exact .nil
  | cons piece hstep _ ih => exact .cons piece.dots hstep ih

theorem exists_segmented_of_written (h : Written text steps) :
    ∃ pieces, Segmented text pieces ∧ pieces.map (·.step) = steps := by
  induction h with
  | nil => exact ⟨[], .nil, rfl⟩
  | @cons text rest step steps k hstep _ ih =>
      obtain ⟨pieces, hpieces, rfl⟩ := ih
      exact ⟨⟨text, step, k⟩ :: pieces, .cons ⟨text, step, k⟩ hstep hpieces, rfl⟩

theorem writeSteps_eq_iff (h : Segmented text pieces) (hread : readAll text = .ok steps) :
    writeSteps steps = text ↔ ∀ piece ∈ pieces, piece.IsCanonical := by
  induction h generalizing steps with
  | nil =>
      obtain rfl : [] = steps := Except.ok.inj (readAll_nil.symm.trans hread)
      exact iff_of_true rfl (List.forall_mem_nil _)
  | @cons rest pieces piece hstep hrest ih =>
      have hclear := clear_dot_of_written (written_of_segmented hrest)
      have hfirst := readStep_of_readAll hstep hclear hread
      obtain ⟨more, hmore, rfl⟩ := exists_rest_of_readAll hfirst hread
      rw [List.forall_mem_cons, isCanonical_iff hstep, ← ih hmore, writeSteps,
        List.flatMap_cons, ← writeSteps]
      constructor
      · intro h
        -- The text and what is written are read alike, so they part behind the first
        -- step at the same place.
        have hwritten := readStep_write_append piece.step (clear_dot_writeSteps more)
        rw [h, hfirst, Except.ok.injEq, Prod.mk.injEq] at hwritten
        obtain rfl := hwritten.2
        rw [← List.append_assoc] at h
        exact ⟨List.append_cancel_right h, rfl⟩
      · rintro ⟨h, rfl⟩
        rw [h, List.append_assoc]

end Text

/-- A path text is the rendering of its path exactly if all of its pieces, however it is cut
into steps, are in brackets with no dots behind them, with numbers in shortest form and with
no backtick in a key that is not in a pair. -/
theorem rendering_fixes_canonical_texts (text : String) (p : Path) (s : Session)
    (hs : s.Ready) (h : outcome (Session.parse text) s = .ok p) :
    (∃ pieces, Segmented text.toList pieces ∧ pieces.map (·.step) = p.steps) ∧
      ∀ pieces, Segmented text.toList pieces →
        (p.render = text ↔ ∀ piece ∈ pieces, piece.IsCanonical) := by
  have hread : readAll text.toList = .ok p.steps := by
    rw [Session.outcome_parse hs, Session.readPath_eq_ok_iff] at h
    exact parseSteps_eq_ok_iff.mp h
  refine ⟨exists_segmented_of_written (written_of_readAll hread), ?_⟩
  intro pieces hpieces
  rw [← writeSteps_eq_iff hpieces hread, Path.render, renderSteps, ← String.toList_inj,
    String.toList_ofList]

theorem rendering_fixes_canonical_texts_with_pairs_and_zeros :
    let text := "['a`'``'][-7][self][0]"
    let p : Path := ⟨[.key "a'`", .index ⟨-7, by decide, by decide⟩, .here,
      .index ⟨0, by decide, by decide⟩]⟩
    let loose := "['a`b'][-07].a"
    let q : Path := ⟨[.key "a`b", .index ⟨-7, by decide, by decide⟩, .key "a"]⟩
    Session.Ready {} ∧
      outcome (Session.parse text) {} = .ok p ∧ p.render = text ∧
      (∃ pieces, Segmented text.toList pieces ∧ ∀ piece ∈ pieces, piece.IsCanonical) ∧
      outcome (Session.parse loose) {} = .ok q ∧ q.render = "['a``b'][-7]['a']" ∧
      ∃ pieces, Segmented loose.toList pieces ∧ ¬∀ piece ∈ pieces, piece.IsCanonical := by
  intro text p loose q
  have hp : outcome (Session.parse text) {} = .ok p := by
    rw [Session.outcome_parse Session.ready_new, Session.readPath_eq_ok_iff]
    decide +kernel
  have hq : outcome (Session.parse loose) {} = .ok q := by
    rw [Session.outcome_parse Session.ready_new, Session.readPath_eq_ok_iff]
    decide +kernel
  have htext : p.render = text := by decide +kernel
  have hloose : q.render ≠ loose := by decide +kernel
  refine ⟨Session.ready_new, hp, htext, ?_, hq, by decide +kernel, ?_⟩
  · obtain ⟨⟨pieces, hpieces, -⟩, hcanonical⟩ :=
      rendering_fixes_canonical_texts text p {} Session.ready_new hp
    exact ⟨pieces, hpieces, (hcanonical pieces hpieces).mp htext⟩
  · obtain ⟨⟨pieces, hpieces, -⟩, hcanonical⟩ :=
      rendering_fixes_canonical_texts loose q {} Session.ready_new hq
    exact ⟨pieces, hpieces, mt (hcanonical pieces hpieces).mpr hloose⟩

end TreePath.Canonical
