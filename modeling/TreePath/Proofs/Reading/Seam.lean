import TreePath.Proofs.Reading.RoundTrip

/-!
Where one part of a text ends and the next begins. A step is read alike before any two
rests that neither add a dot to it nor lengthen an identifier.
-/

namespace TreePath.Seam

open TreePath.Acceptance
open TreePath.Grammar
open TreePath.Reading
open TreePath.RoundTrip

/-- The end of the one text and the start of the other could belong to one
identifier. -/
def Merges (front rest : List Char) : Prop :=
  (∃ c ∈ front.getLast?, IsBody c) ∧ ∃ c ∈ rest.head?, IsBody c

/-- Nothing at the start of the rest would be taken for a part of the front. -/
def Apart (front rest : List Char) : Prop :=
  front = [] ∨ Clear (· = '.') rest ∧ ¬ Merges front rest

section Ends

variable {p : Char → Prop} {front rest more : List Char}

theorem clear_append (hrest : Clear p rest) (hmore : rest = [] → Clear p more) :
    Clear p (rest ++ more) := by
  cases rest with
  | nil => exact hmore rfl
  | cons c rest => exact clear_cons_iff.mpr (clear_cons_iff.mp hrest)

theorem clear_of_append (h : Clear p (rest ++ more)) : Clear p rest := by
  cases rest with
  | nil => exact clear_nil p
  | cons c rest => exact clear_cons_iff.mpr (clear_cons_iff.mp h)

theorem not_merges_iff :
    ¬ Merges front rest ↔ ∀ c ∈ front.getLast?, IsBody c → Clear IsBody rest := by
  simp only [Merges, Clear, not_and, not_exists, forall_exists_index, and_imp]

theorem not_merges_of_clear (h : Clear IsBody rest) : ¬ Merges front rest :=
  not_merges_iff.mpr fun _ _ _ => h

theorem not_merges_concat {c : Char} (hc : ¬ IsBody c) :
    ¬ Merges (front ++ [c]) rest := by
  refine not_merges_iff.mpr ?_
  intro d hd hbody
  rw [List.getLast?_concat, Option.mem_some_iff] at hd
  exact absurd (hd ▸ hbody) hc

theorem not_merges_append (hrest : ¬ Merges front rest)
    (hmore : rest = [] → ¬ Merges front more) : ¬ Merges front (rest ++ more) := by
  rw [not_merges_iff] at hrest ⊢
  intro c hc hbody
  exact clear_append (hrest c hc hbody) fun hnil =>
    not_merges_iff.mp (hmore hnil) c hc hbody

theorem not_merges_of_append (h : ¬ Merges front (rest ++ more)) :
    ¬ Merges front rest := by
  rw [not_merges_iff] at h ⊢
  intro c hc hbody
  exact clear_of_append (h c hc hbody)

theorem merges_append_iff {first : List Char} (h : front ≠ []) :
    Merges (first ++ front) rest ↔ Merges front rest := by
  rw [Merges, Merges, List.getLast?_append_of_ne_nil first h]

theorem not_merges_dots_append {k : Nat} (h : ¬ Merges (front ++ dots k) rest) :
    ¬ Merges front (dots k ++ rest) := by
  cases k with
  | zero => simpa only [dots, List.replicate_zero, List.append_nil, List.nil_append] using h
  | succ k => exact not_merges_of_clear (clear_cons_iff.mpr (by decide))

theorem not_merges_append_dots (k : Nat) : ¬ Merges (front ++ dots (k + 1)) rest := by
  rw [dots, List.replicate_succ', ← List.append_assoc]
  exact not_merges_concat (by decide)

theorem apart_of_append {first : List Char} (h : Apart (first ++ front) rest) :
    Apart front rest := by
  by_cases hfront : front = []
  · exact Or.inl hfront
  · refine h.imp (fun hnil => (List.append_eq_nil_iff.mp hnil).2) ?_
    rw [merges_append_iff hfront]
    exact id

theorem apart_append {first : List Char} (hclear : Clear (· = '.') (front ++ rest))
    (hfirst : ¬ Merges first (front ++ rest)) (hfront : Apart front rest) :
    Apart (first ++ front) rest := by
  by_cases hnil : front = []
  · subst hnil
    rw [List.append_nil]
    exact Or.inr ⟨hclear, hfirst⟩
  · rw [Apart, merges_append_iff hnil]
    exact Or.inr (hfront.resolve_left hnil)

end Ends

section Step

variable {text front rest other : List Char} {step : Step}

theorem not_merges_of_spells (h : Spells rest text step) : ¬ Merges text rest := by
  cases h with
  | identifier hc hcs hrest => exact not_merges_of_clear hrest
  | @subscript body _ hbody => exact @not_merges_concat ('[' :: body) rest ']' (by decide)

theorem spells_before (h : Spells rest text step) (hother : ¬ Merges text other) :
    Spells other text step := by
  cases h with
  | @identifier c cs hc hcs hrest =>
      have hbody : ∀ d ∈ c :: cs, IsBody d :=
        List.forall_mem_cons.mpr ⟨Or.inl hc, hcs⟩
      have hlast := List.getLast?_eq_some_getLast (List.cons_ne_nil c cs)
      exact Spells.identifier hc hcs
        (not_merges_iff.mp hother _ hlast (hbody _ (List.getLast_mem _)))
  | subscript hbody => exact Spells.subscript hbody

theorem short_of_readSubscript {body : List Char} {r : Step × List Char}
    (hbody : Body body step) (h : readSubscript (body ++ ']' :: rest) = .ok r) :
    Short body := by
  cases hbody with
  | @number n i hne hdigits hi =>
      have hsplit : Numeral.split? (n.toList ++ ']' :: rest) =
          some (n, ']' :: rest) :=
        Leaf.split?_append hne hdigits (clear_cons_iff.mpr (by decide))
      intro m hm htext
      rw [toList_injective_of_isDigit hm hdigits htext]
      cases hvalue : n.value with
      | error e =>
          simp only [readSubscript, hsplit, hvalue] at h
          cases h
      | ok v => exact (value_eq_ok_iff.mp hvalue).1
  | here => exact short_of_front (by decide) (by decide) _
  | quoted _ => exact short_of_front (by decide) (by decide) _

/-- If the text is a subscript, its number is no longer than can be read. -/
def Legible (text : List Char) : Prop :=
  ∀ body, text = '[' :: (body ++ [']']) → Short body

theorem legible_of_readBareStep {r : Step × List Char} (hspells : Spells rest text step)
    (h : readBareStep (text ++ rest) = .ok r) : Legible text := by
  intro body htext
  cases hspells with
  | identifier hc _ _ =>
      rw [(List.cons.inj htext).1] at hc
      exact absurd hc (by decide)
  | @subscript spelled _ hbody =>
      obtain rfl := List.append_cancel_right (List.cons.inj htext).2
      rw [List.cons_append, readBareStep, if_pos rfl, List.append_assoc,
        List.singleton_append] at h
      exact short_of_readSubscript hbody h

theorem legible_of_readStep {r : Step × List Char} (hspells : Spells rest text step)
    (h : readStep (text ++ rest) = .ok r) : Legible text := by
  rw [readStep] at h
  cases hbare : readBareStep (text ++ rest) with
  | error e =>
      rw [hbare] at h
      cases h
  | ok found => exact legible_of_readBareStep hspells hbare

theorem readStep_eq_ok_iff {s : List Char} :
    readStep s = .ok (step, rest) ↔
      ∃ text k, Spells (dots k ++ rest) text step ∧ Legible text ∧
        Clear (· = '.') rest ∧ s = text ++ (dots k ++ rest) := by
  constructor
  · intro h
    rw [readStep] at h
    cases hbare : readBareStep s with
    | error e =>
        rw [hbare] at h
        cases h
    | ok r =>
        obtain ⟨found, after⟩ := r
        rw [hbare] at h
        cases h
        obtain ⟨text, htext, rfl⟩ := spells_of_readBareStep hbare
        obtain ⟨k, hk, hclear⟩ := exists_dots after
        refine ⟨text, k, ?_, legible_of_readBareStep htext hbare, hclear, ?_⟩
        · rw [← hk]
          exact htext
        · rw [← hk]
  · rintro ⟨text, k, htext, hlegible, hclear, rfl⟩
    exact readStep_of_spells htext hlegible hclear

theorem readStep_before_dots (h : readStep (front ++ rest) = .ok (step, rest))
    (k : Nat) (hdot : Clear (· = '.') other) (hother : ¬ Merges front (dots k ++ other)) :
    readStep (front ++ (dots k ++ other)) = .ok (step, other) := by
  obtain ⟨text, j, htext, hlegible, -, hfront⟩ := readStep_eq_ok_iff.mp h
  rw [← List.append_assoc] at hfront
  obtain rfl := List.append_cancel_right hfront
  have hdots : dots (j + k) ++ other = dots j ++ (dots k ++ other) := by
    rw [dots, ← List.replicate_append_replicate, List.append_assoc]
    rfl
  refine readStep_eq_ok_iff.mpr ⟨text, j + k, ?_, hlegible, hdot, ?_⟩
  · rw [hdots]
    exact spells_before htext (not_merges_dots_append hother)
  · rw [hdots, List.append_assoc]

theorem readStep_before (h : readStep (front ++ rest) = .ok (step, rest))
    (hdot : Clear (· = '.') other) (hother : ¬ Merges front other) :
    readStep (front ++ other) = .ok (step, other) :=
  readStep_before_dots h 0 hdot hother

theorem exists_front_of_readStep {s : List Char} (h : readStep s = .ok (step, rest)) :
    ∃ front, s = front ++ rest ∧ front ≠ [] ∧ Clear (· = '.') rest ∧
      ¬ Merges front rest := by
  obtain ⟨text, k, htext, -, hclear, rfl⟩ := readStep_eq_ok_iff.mp h
  refine ⟨text ++ dots k, (List.append_assoc ..).symm, ?_, hclear, ?_⟩
  · cases htext <;> exact nofun
  · cases k with
    | zero =>
        simpa only [dots, List.replicate_zero, List.append_nil, List.nil_append]
          using not_merges_of_spells htext
    | succ k => exact not_merges_append_dots k

end Step

section Run

variable {s front rest : List Char} {step : Step} {steps : List Step} {h : Halt}

theorem pull_nil : pull none [] = ([], .exhausted) := by
  rw [pull]
  rfl

theorem pull_limit_of_readStep {limit : Option Nat} (hlimit : limit ≠ some 0)
    (hstep : readStep s = .ok (step, rest)) :
    pull limit s = (step :: (pull (limit.map (· - 1)) rest).1,
      (pull (limit.map (· - 1)) rest).2) := by
  rw [pull, if_neg hlimit, isEmpty_of_readStep hstep, if_neg Bool.false_ne_true]
  split
  · rename_i e he
    rw [hstep] at he
    cases he
  · rename_i found after hok
    rw [hstep] at hok
    cases hok
    rfl

theorem pull_limit_of_error {limit : Option Nat} (hlimit : limit ≠ some 0) (hne : s ≠ [])
    (hstep : readStep s = .error h) : pull limit s = ([], .halted h) := by
  rw [pull, if_neg hlimit, if_neg (by rwa [List.isEmpty_iff])]
  split
  · rename_i e he
    rw [hstep] at he
    cases he
    rfl
  · rename_i found after hok
    rw [hstep] at hok
    cases hok

theorem pull_of_readStep (hstep : readStep s = .ok (step, rest)) :
    pull none s = (step :: (pull none rest).1, (pull none rest).2) :=
  pull_limit_of_readStep nofun hstep

theorem pull_of_error (hne : s ≠ []) (hstep : readStep s = .error h) :
    pull none s = ([], .halted h) :=
  pull_limit_of_error nofun hne hstep

theorem pull_none_cases (s : List Char) :
    (∃ steps, pull none s = (steps, .exhausted) ∧ readAll s = .ok steps) ∨
      ∃ steps h, pull none s = (steps, .halted h) ∧ readAll s = .error h := by
  induction s using readAll.induct with
  | case1 s hs =>
      rw [List.isEmpty_iff.mp hs]
      exact Or.inl ⟨[], pull_nil, readAll_nil⟩
  | case2 s hs h hstep =>
      have hne : s ≠ [] := by rwa [List.isEmpty_iff] at hs
      exact Or.inr ⟨[], h, pull_of_error hne hstep, readAll_of_error hne hstep⟩
  | case3 s hs step rest hstep ih =>
      rw [pull_of_readStep hstep, readAll_of_readStep hstep]
      rcases ih with ⟨steps, hpull, hread⟩ | ⟨steps, h, hpull, hread⟩
      · rw [hpull, hread]
        exact Or.inl ⟨step :: steps, rfl, rfl⟩
      · rw [hpull, hread]
        exact Or.inr ⟨step :: steps, h, rfl, rfl⟩

theorem readAll_eq_ok_iff : readAll s = .ok steps ↔ pull none s = (steps, .exhausted) := by
  rcases pull_none_cases s with ⟨found, hpull, hread⟩ | ⟨found, h, hpull, hread⟩
  · rw [hpull, hread, Except.ok.injEq, Prod.mk.injEq, and_iff_left rfl]
  · rw [hpull, hread]
    exact ⟨nofun, nofun⟩

theorem readAll_eq_error_iff :
    readAll s = .error h ↔ ∃ steps, pull none s = (steps, .halted h) := by
  rcases pull_none_cases s with ⟨found, hpull, hread⟩ | ⟨found, e, hpull, hread⟩
  · rw [hpull, hread]
    exact ⟨nofun, nofun⟩
  · rw [hpull, hread]
    simp only [Except.error.injEq, Prod.mk.injEq, Ending.halted.injEq,
      exists_and_right, exists_eq', true_and]

theorem readAll_cons (hstep : readStep s = .ok (step, rest))
    (hrest : readAll rest = .ok steps) : readAll s = .ok (step :: steps) := by
  rw [readAll_of_readStep hstep, hrest]
  rfl

/-- Induction along the steps of a text that is read. What stands behind a step
is apart from it. -/
theorem readAll_induction {motive : ∀ s steps, readAll s = .ok steps → Prop}
    (nil : motive [] [] readAll_nil)
    (cons : ∀ front rest step steps
      (hstep : readStep (front ++ rest) = .ok (step, rest))
      (hrest : readAll rest = .ok steps), front ≠ [] → Clear (· = '.') rest →
      ¬ Merges front rest → motive rest steps hrest →
      motive (front ++ rest) (step :: steps) (readAll_cons hstep hrest))
    (hread : readAll s = .ok steps) : motive s steps hread := by
  induction s using readAll.induct generalizing steps with
  | case1 s hs =>
      obtain rfl := List.isEmpty_iff.mp hs
      obtain rfl : [] = steps := Except.ok.inj (readAll_nil.symm.trans hread)
      exact nil
  | case2 s hs e he =>
      have hne : s ≠ [] := by rwa [List.isEmpty_iff] at hs
      cases (readAll_of_error hne he).symm.trans hread
  | case3 s hs step rest hstep ih =>
      obtain ⟨front, rfl, hfront, hdot, hmerge⟩ := exists_front_of_readStep hstep
      obtain ⟨more, hrest, rfl⟩ := exists_rest_of_readAll hstep hread
      exact cons front rest step more hstep hrest hfront hdot hmerge (ih hrest)

/-- In front of a rest that is apart from it, a text gives the steps that it
gives alone, and then the rest is read as it is alone. -/
theorem pull_append (hread : readAll front = .ok steps) (hrest : Apart front rest) :
    pull none (front ++ rest) = (steps ++ (pull none rest).1, (pull none rest).2) := by
  induction hread using readAll_induction with
  | nil => rfl
  | cons first more step steps hstep hmore hfirst hclear hapart ih =>
      obtain ⟨hdot, hmerge⟩ := hrest.resolve_left (List.append_ne_nil_of_left_ne_nil hfirst _)
      -- A step is apart from what is left of its own text, and from the other text
      -- only where nothing is left.
      have hboth : readStep (first ++ (more ++ rest)) = .ok (step, more ++ rest) := by
        refine readStep_before hstep (clear_append hclear fun _ => hdot)
          (not_merges_append hapart ?_)
        rintro rfl
        rwa [List.append_nil] at hmerge
      rw [List.append_assoc, pull_of_readStep hboth, ih (apart_of_append hrest)]
      rfl

/-- What is left of a text from the first step on that cannot be read. -/
def unread (s : List Char) : List Char :=
  if s.isEmpty then []
  else
    match _h : readStep s with
    | .error _ => s
    | .ok (_, rest) => unread rest
termination_by s.length
decreasing_by exact length_lt_of_readStep ‹_›

theorem unread_of_readStep (hstep : readStep s = .ok (step, rest)) :
    unread s = unread rest := by
  rw [unread, isEmpty_of_readStep hstep, if_neg Bool.false_ne_true]
  split
  · rename_i e he
    rw [hstep] at he
    cases he
  · rename_i found after hok
    rw [hstep] at hok
    cases hok
    rfl

theorem unread_of_error (hne : s ≠ []) (hstep : readStep s = .error h) : unread s = s := by
  rw [unread, if_neg (by rwa [List.isEmpty_iff])]
  split
  · rfl
  · rename_i found after hok
    rw [hstep] at hok
    cases hok

theorem unread_of_halted (hpull : pull none s = (steps, .halted h)) :
    (∃ front, s = front ++ unread s ∧ readAll front = .ok steps ∧
      Apart front (unread s)) ∧ unread s ≠ [] ∧ readStep (unread s) = .error h := by
  induction s using readAll.induct generalizing steps with
  | case1 s hs =>
      rw [List.isEmpty_iff.mp hs, pull_nil] at hpull
      cases hpull
  | case2 s hs e he =>
      have hne : s ≠ [] := by rwa [List.isEmpty_iff] at hs
      rw [pull_of_error hne he] at hpull
      cases hpull
      rw [unread_of_error hne he]
      exact ⟨⟨[], rfl, readAll_nil, Or.inl rfl⟩, hne, he⟩
  | case3 s hs step more hstep ih =>
      rw [pull_of_readStep hstep, Prod.mk.injEq] at hpull
      rw [unread_of_readStep hstep]
      obtain ⟨⟨front, hmore, hread, hapart⟩, hrest⟩ := ih (Prod.ext rfl hpull.2)
      obtain ⟨first, rfl, -, hclear, hmerge⟩ := exists_front_of_readStep hstep
      have hclear' : Clear (· = '.') (front ++ unread more) := hmore ▸ hclear
      have hmerge' : ¬ Merges first (front ++ unread more) := hmore ▸ hmerge
      have hfront : readStep (first ++ front) = .ok (step, front) :=
        readStep_before hstep (clear_of_append hclear') (not_merges_of_append hmerge')
      refine ⟨⟨first ++ front, ?_, ?_, ?_⟩, hrest⟩
      · rw [List.append_assoc, ← hmore]
      · rw [← hpull.1]
        exact readAll_cons hfront hread
      · exact apart_append hclear' hmerge' hapart

theorem pull_eq_halted_iff :
    pull none s = (steps, .halted h) ↔
      ∃ front rest, s = front ++ rest ∧ readAll front = .ok steps ∧
        Apart front rest ∧ rest ≠ [] ∧ readStep rest = .error h := by
  constructor
  · intro hpull
    obtain ⟨⟨front, hs, hread, hapart⟩, hne, herror⟩ := unread_of_halted hpull
    exact ⟨front, unread s, hs, hread, hapart, hne, herror⟩
  · rintro ⟨front, rest, rfl, hread, hapart, hne, herror⟩
    rw [pull_append hread hapart, pull_of_error hne herror, List.append_nil]

end Run

end TreePath.Seam
