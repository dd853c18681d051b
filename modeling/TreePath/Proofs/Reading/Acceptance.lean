import TreePath.Path.Basic
import TreePath.Proofs.Reading.Leaf

/-!
Reading accepts exactly the grammar, and hands out the steps that the grammar
names. Soundness holds of every text. Completeness asks that the numerals of the
subscripts are not too long to be read, and of nothing else.
-/

namespace TreePath.Acceptance

open TreePath.Grammar
open TreePath.Leaf
open TreePath.Reading

theorem close_eq_ok_iff {step found : Step} {s rest : List Char} :
    close step s = .ok (found, rest) ↔ step = found ∧ s = ']' :: rest := by
  constructor
  · intro h
    unfold close at h
    split at h
    · cases h
      exact ⟨rfl, rfl⟩
    · cases h
  · rintro ⟨rfl, rfl⟩
    rfl

theorem close_eq_error_iff {step : Step} {s : List Char} {h : Halt} :
    close step s = .error h ↔ Clear (· = ']') s ∧ h = .flawed .openSubscript s := by
  constructor
  · intro hclose
    unfold close at hclose
    split at hclose
    · cases hclose
    · rename_i hopen
      cases hclose
      refine ⟨?_, rfl⟩
      cases s with
      | nil => exact clear_nil _
      | cons c s =>
          refine clear_cons_iff.mpr ?_
          rintro rfl
          exact hopen s rfl
  · rintro ⟨hopen, rfl⟩
    rw [close]
    rintro s rfl
    exact clear_cons_iff.mp hopen rfl

theorem value_eq_ok_iff {n : Numeral} {v : Int} :
    n.value = .ok v ↔ n.digits.length ≤ digitLimit ∧ n.toInt = v := by
  unfold Numeral.value
  split
  · rename_i hlong
    constructor
    · intro h
      cases h
    · rintro ⟨hshort, -⟩
      omega
  · rename_i hshort
    rw [Except.ok.injEq]
    exact ⟨fun h => ⟨by omega, h⟩, fun h => h.2⟩

theorem value_eq_error_iff {n : Numeral} {e : TooManyDigits} :
    n.value = .error e ↔ n.digits.length = e.count ∧ digitLimit < e.count := by
  obtain ⟨count⟩ := e
  rw [Numeral.value]
  split
  · rename_i hlong
    rw [Except.error.injEq, TooManyDigits.mk.injEq]
    exact ⟨fun h => ⟨h, h ▸ hlong⟩, fun h => h.1⟩
  · rename_i hshort
    refine ⟨nofun, ?_⟩
    rintro ⟨rfl, hlong⟩
    exact absurd hlong hshort

theorem readSubscript_singleQuote (quoted : List Char) :
    readSubscript (Text.singleQuote :: quoted) =
      match unquote? quoted with
      | some (name, rest) => close (.key (String.ofList name)) rest
      | none => .error (.flawed .openText (Text.singleQuote :: quoted)) :=
  rfl

/-- The body of a subscript is no numeral of more digits than can be read. -/
def Short (body : List Char) : Prop :=
  ∀ n : Numeral, (∀ c ∈ n.digits, IsDigit c) → n.toList = body →
    n.digits.length ≤ digitLimit

theorem toList_ne_of_front {c : Char} (hminus : c ≠ '-') (hc : ¬ IsDigit c)
    (body : List Char) {n : Numeral} (hdigits : ∀ d ∈ n.digits, IsDigit d) :
    n.toList ≠ c :: body := by
  obtain ⟨negative, digits⟩ := n
  intro htext
  cases negative with
  | true => exact hminus (List.cons.inj htext).1.symm
  | false =>
      have hfront : digits = c :: body := htext
      exact hc (hdigits c (hfront ▸ List.mem_cons_self))

theorem short_of_front {c : Char} (hminus : c ≠ '-') (hc : ¬ IsDigit c)
    (body : List Char) : Short (c :: body) :=
  fun _ hdigits htext => absurd htext (toList_ne_of_front hminus hc body hdigits)

theorem readSubscript_of_body {body : List Char} {step : Step}
    (h : Body body step) (hshort : Short body) (rest : List Char) :
    readSubscript (body ++ ']' :: rest) = .ok (step, rest) := by
  cases h with
  | @number n i hne hdigits hi =>
      have hsplit : Numeral.split? (n.toList ++ ']' :: rest) =
          some (n, ']' :: rest) :=
        split?_append hne hdigits (clear_cons_iff.mpr (by decide))
      have hvalue : n.value = .ok i.val :=
        value_eq_ok_iff.mpr ⟨hshort n hdigits rfl, hi.symm⟩
      simp only [readSubscript, hsplit, hvalue, Index.ofInt?_val, close]
  | here => rfl
  | @quoted raw name hraw =>
      rw [List.cons_append, List.append_assoc, List.singleton_append,
        readSubscript_singleQuote, unquote?_append hraw (']' :: rest)]
      rfl

theorem body_of_readSubscript {s rest : List Char} {step : Step}
    (h : readSubscript s = .ok (step, rest)) :
    ∃ body, Body body step ∧ s = body ++ ']' :: rest := by
  unfold readSubscript at h
  split at h
  · rename_i n after hsplit
    split at h
    · cases h
    · rename_i v hvalue
      split at h
      · rename_i i hi
        obtain ⟨rfl, rfl⟩ := close_eq_ok_iff.mp h
        refine ⟨n.toList, Body.number (Numeral.digits_ne_nil_of_split? hsplit)
          (isDigit_of_split? hsplit) ?_,
          (Numeral.toList_append_of_split? hsplit).symm⟩
        rw [Index.ofInt?_eq_some_iff.mp hi, (value_eq_ok_iff.mp hvalue).2]
      · cases h
  · split at h
    · obtain ⟨rfl, rfl⟩ := close_eq_ok_iff.mp h
      exact ⟨_, Body.here, rfl⟩
    · split at h
      · rename_i quoted name after hkey
        obtain ⟨rfl, rfl⟩ := close_eq_ok_iff.mp h
        obtain ⟨raw, rfl, hraw⟩ := quotes_of_unquote? hkey
        refine ⟨_, Body.quoted hraw, ?_⟩
        rw [List.cons_append, List.append_assoc]
        rfl
      · cases h
    · split at h <;> cases h

theorem readIdentifier_append {c : Char} {cs rest : List Char} (hc : IsHead c)
    (hcs : ∀ d ∈ cs, IsBody d) (hrest : Clear IsBody rest) :
    readIdentifier (c :: cs ++ rest) = (.key (String.ofList (c :: cs)), rest) := by
  have hrun : ∀ d ∈ c :: cs, IsBody d := by
    intro d hd
    rcases List.mem_cons.mp hd with rfl | hd
    · exact Or.inl hc
    · exact hcs d hd
  rw [readIdentifier,
    takeWhile_append_of_clear (fun _ => isIdentifierBody_iff) hrun hrest,
    dropWhile_append_of_clear (fun _ => isIdentifierBody_iff) hrun hrest]

theorem readBareStep_of_spells {text rest : List Char} {step : Step}
    (h : Spells rest text step)
    (hshort : ∀ body, text = '[' :: (body ++ [']']) → Short body) :
    readBareStep (text ++ rest) = .ok (step, rest) := by
  cases h with
  | @identifier c cs hc hcs hrest =>
      have hopen : c ≠ '[' := by
        rintro rfl
        exact absurd hc (by decide)
      rw [List.cons_append, readBareStep, if_neg hopen,
        if_pos (isIdentifierHead_iff.mpr hc), ← List.cons_append,
        readIdentifier_append hc hcs hrest]
  | @subscript body _ hbody =>
      rw [List.cons_append, readBareStep, if_pos rfl, List.append_assoc,
        List.singleton_append]
      exact readSubscript_of_body hbody (hshort body rfl) rest

theorem spells_of_readBareStep {s rest : List Char} {step : Step}
    (h : readBareStep s = .ok (step, rest)) :
    ∃ text, Spells rest text step ∧ s = text ++ rest := by
  unfold readBareStep at h
  split at h
  · cases h
  · rename_i c cs
    split at h
    · rename_i hopen
      obtain ⟨body, hbody, rfl⟩ := body_of_readSubscript h
      refine ⟨_, Spells.subscript hbody, ?_⟩
      rw [hopen, List.cons_append, List.append_assoc, List.singleton_append]
    · split at h
      · rename_i hhead
        cases h
        have hbody : isIdentifierBody c = true :=
          isIdentifierBody_iff.mpr (Or.inl (isIdentifierHead_iff.mp hhead))
        rw [List.takeWhile_cons_of_pos hbody, List.dropWhile_cons_of_pos hbody]
        refine ⟨_, Spells.identifier (isIdentifierHead_iff.mp hhead)
          (of_mem_takeWhile fun _ => isIdentifierBody_iff)
          (clear_dropWhile (fun _ => isIdentifierBody_iff) cs), ?_⟩
        rw [List.cons_append, List.takeWhile_append_dropWhile]
      · cases h

theorem isDot_iff {c : Char} : (c == '.') = true ↔ c = '.' :=
  beq_iff_eq

theorem dropDots_append {k : Nat} {rest : List Char}
    (hrest : Clear (· = '.') rest) : dropDots (dots k ++ rest) = rest :=
  dropWhile_append_of_clear (fun _ => isDot_iff)
    (fun _ hc => List.eq_of_mem_replicate hc) hrest

theorem exists_dots (s : List Char) :
    ∃ k, s = dots k ++ dropDots s ∧ Clear (· = '.') (dropDots s) := by
  refine ⟨(s.takeWhile (· == '.')).length, ?_,
    clear_dropWhile (fun _ => isDot_iff) s⟩
  have hdots : s.takeWhile (· == '.') =
      dots (s.takeWhile (· == '.')).length := by
    rw [dots, List.eq_replicate_iff]
    exact ⟨rfl, of_mem_takeWhile fun _ => isDot_iff⟩
  rw [← hdots]
  exact List.takeWhile_append_dropWhile.symm

theorem readStep_of_spells {k : Nat} {text rest : List Char} {step : Step}
    (h : Spells (dots k ++ rest) text step)
    (hshort : ∀ body, text = '[' :: (body ++ [']']) → Short body)
    (hrest : Clear (· = '.') rest) :
    readStep (text ++ (dots k ++ rest)) = .ok (step, rest) := by
  rw [readStep, readBareStep_of_spells h hshort]
  simp only [Except.map, dropDots_append hrest]

theorem spells_of_readStep {s rest : List Char} {step : Step}
    (h : readStep s = .ok (step, rest)) :
    ∃ text k, Spells (dots k ++ rest) text step ∧ s = text ++ (dots k ++ rest) := by
  unfold readStep at h
  cases hbare : readBareStep s with
  | error e =>
      rw [hbare] at h
      cases h
  | ok r =>
      obtain ⟨found, after⟩ := r
      rw [hbare] at h
      cases h
      obtain ⟨text, htext, rfl⟩ := spells_of_readBareStep hbare
      obtain ⟨k, hk, -⟩ := exists_dots after
      refine ⟨text, k, ?_, ?_⟩
      · rw [← hk]
        exact htext
      · rw [← hk]

theorem readAll_nil : readAll [] = .ok [] := by
  rw [readAll]
  rfl

theorem isEmpty_of_readStep {s : List Char} {r : Step × List Char}
    (h : readStep s = .ok r) : s.isEmpty = false := by
  cases s with
  | nil => cases h
  | cons c s => rfl

theorem readAll_of_readStep {s rest : List Char} {step : Step}
    (h : readStep s = .ok (step, rest)) :
    readAll s = (readAll rest).map (step :: ·) := by
  rw [readAll, isEmpty_of_readStep h, if_neg Bool.false_ne_true]
  split
  · rename_i e he
    rw [h] at he
    cases he
  · rename_i found after hok
    rw [h] at hok
    cases hok
    rfl

theorem readAll_of_error {s : List Char} {h : Halt} (hne : s ≠ [])
    (hstep : readStep s = .error h) : readAll s = .error h := by
  rw [readAll, if_neg (by rwa [List.isEmpty_iff])]
  split
  · rename_i e he
    rw [hstep] at he
    cases he
    rfl
  · rename_i hok
    rw [hstep] at hok
    cases hok

theorem exists_rest_of_readAll {s rest : List Char} {step : Step} {steps : List Step}
    (hstep : readStep s = .ok (step, rest)) (h : readAll s = .ok steps) :
    ∃ more, readAll rest = .ok more ∧ step :: more = steps := by
  rw [readAll_of_readStep hstep] at h
  cases hrest : readAll rest with
  | error e =>
      rw [hrest] at h
      cases h
  | ok more =>
      rw [hrest] at h
      exact ⟨more, rfl, Except.ok.inj h⟩

theorem exists_readStep_of_readAll {s : List Char} {steps : List Step} (hne : s ≠ [])
    (h : readAll s = .ok steps) : ∃ step rest, readStep s = .ok (step, rest) := by
  cases hstep : readStep s with
  | error e => cases (readAll_of_error hne hstep).symm.trans h
  | ok r => exact ⟨r.1, r.2, rfl⟩

theorem written_of_readAll {s : List Char} {steps : List Step}
    (h : readAll s = .ok steps) : Written s steps := by
  induction s using readAll.induct generalizing steps with
  | case1 s hs =>
      obtain rfl := List.isEmpty_iff.mp hs
      obtain rfl : [] = steps := Except.ok.inj (readAll_nil.symm.trans h)
      exact Written.nil
  | case2 s hs e he =>
      have hne : s ≠ [] := by rwa [List.isEmpty_iff] at hs
      cases (readAll_of_error hne he).symm.trans h
  | case3 s hs step rest hstep ih =>
      obtain ⟨more, hrest, rfl⟩ := exists_rest_of_readAll hstep h
      obtain ⟨text, k, htext, rfl⟩ := spells_of_readStep hstep
      exact Written.cons k htext (ih hrest)

theorem clear_dot_of_written {s : List Char} {steps : List Step}
    (h : Written s steps) : Clear (· = '.') s := by
  cases h with
  | nil => exact clear_nil _
  | cons k hstep _ =>
      cases hstep with
      | identifier hc _ _ =>
          refine clear_cons_iff.mpr ?_
          rintro rfl
          exact absurd hc (by decide)
      | subscript _ => exact clear_cons_iff.mpr (by decide)

theorem readAll_of_written {s : List Char} {steps : List Step}
    (h : Written s steps)
    (hshort : ∀ body, '[' :: (body ++ [']']) <:+: s → Short body) :
    readAll s = .ok steps := by
  induction h with
  | nil => exact readAll_nil
  | @cons text rest step steps k hstep hrest ih =>
      have hread : readStep (text ++ (dots k ++ rest)) = .ok (step, rest) := by
        refine readStep_of_spells hstep ?_ (clear_dot_of_written hrest)
        rintro body rfl
        exact hshort body ⟨[], _, rfl⟩
      have hmore : readAll rest = .ok steps := by
        refine ih fun body hbody => hshort body (hbody.trans ?_)
        exact ⟨text ++ dots k, [], by simp only [List.append_assoc, List.append_nil]⟩
      rw [readAll_of_readStep hread, hmore]
      rfl

theorem short_of_digitRunsWithin {body s : List Char}
    (h : DigitRunsWithin digitLimit s) (hbody : body <:+: s) : Short body := by
  rintro ⟨negative, digits⟩ hdigits rfl
  refine h.of_infix hbody digits ?_ hdigits
  cases negative with
  | true => exact ⟨['-'], [], by simp [Numeral.toList]⟩
  | false => exact ⟨[], [], by simp [Numeral.toList]⟩

/-- A path text without overlong runs of digits is read exactly if it is a
sentence of the grammar, and as the steps that the grammar names. -/
theorem parseSteps_eq_ok_iff_written (text : String)
    (h : DigitRunsWithin digitLimit text.toList) (steps : List Step) :
    parseSteps text = .ok steps ↔ Written text.toList steps := by
  unfold parseSteps
  constructor
  · intro hread
    cases hall : readAll text.toList with
    | error e =>
        rw [hall] at hread
        cases hread
    | ok found =>
        rw [hall] at hread
        cases hread
        exact written_of_readAll hall
  · intro hwritten
    rw [readAll_of_written hwritten]
    · rfl
    · intro body hbody
      exact short_of_digitRunsWithin h (List.IsInfix.trans ⟨['['], [']'], rfl⟩ hbody)

theorem written_identifiers_and_subscripts :
    DigitRunsWithin digitLimit "a.$b[-07]['`'``x`y']..[self]".toList ∧
      Written "a.$b[-07]['`'``x`y']..[self]".toList
        [.key "a", .key "$b", .index ⟨-7, by decide, by decide⟩, .key "'`x`y",
          .here] := by
  have hshort : DigitRunsWithin digitLimit
      "a.$b[-07]['`'``x`y']..[self]".toList :=
    DigitRunsWithin.of_length_le (by decide)
  exact ⟨hshort, (parseSteps_eq_ok_iff_written _ hshort _).mp (by decide +kernel)⟩

end TreePath.Acceptance
