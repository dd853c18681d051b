import TreePath.Proofs.Json.Remainder
import TreePath.Proofs.Json.WholeNumber

namespace TreePath.Json

open TreePath.Acceptance
open TreePath.Diagnosis (value_of_digitRunsWithin)
open TreePath.Grammar

/-- What a text is read as. -/
inductive Role where
  | value
  | items
  | members

/-- The reader of the role halts. -/
def Role.Halts (s : List Char) (e : Halt) : Role → Prop
  | value => readValue s = .error e
  | items => readItems s = .error e
  | members => readMembers s = .error e

/-- Past what can be read, reading `s` comes to a value that begins with `t`. -/
inductive Comes : Role → List Char → List Char → Prop where
  | here {s : List Char} : Comes .value s s
  | list {inner t : List Char} (hopen : (skipBlanks inner).head? ≠ some ']')
      (h : Comes .items (skipBlanks inner) t) : Comes .value ('[' :: inner) t
  | map {inner t : List Char} (hopen : (skipBlanks inner).head? ≠ some '\x7d')
      (h : Comes .members (skipBlanks inner) t) : Comes .value ('\x7b' :: inner) t
  | item {s t : List Char} (h : Comes .value s t) : Comes .items s t
  | nextItem {s t more : List Char} {v : Value} {behind : Rest s}
      (hv : readValue s = .ok (v, behind)) (hcomma : skipBlanks behind.1 = ',' :: more)
      (h : Comes .items (skipBlanks more) t) : Comes .items s t
  | member {s t key inner : List Char} (hkey : KeyBefore s key inner)
      (h : Comes .value inner t) : Comes .members s t
  | nextMember {s t key inner more : List Char} {v : Value} {behind : Rest inner}
      (hkey : KeyBefore s key inner) (hv : readValue inner = .ok (v, behind))
      (hcomma : skipBlanks behind.1 = ',' :: more)
      (h : Comes .members (skipBlanks more) t) : Comes .members s t

theorem suffix_of_comes {role : Role} {s t : List Char} (h : Comes role s t) : t <:+ s := by
  induction h with
  | here => exact List.suffix_refl _
  | list _ _ ih => exact ih.trans (skipBlanks_suffix_of_cons rfl)
  | map _ _ ih => exact ih.trans (skipBlanks_suffix_of_cons rfl)
  | item _ ih => exact ih
  | @nextItem s t more v behind hv hcomma _ ih =>
      calc t
          <:+ skipBlanks more := ih
        _ <:+ more := skipBlanks_suffix more
        _ <:+ behind.1 := suffix_of_skipBlanks_eq_cons hcomma
        _ <:+ s := suffix_of_readValue hv
  | member hkey _ ih => exact ih.trans (suffix_of_keyBefore hkey)
  | @nextMember s t key inner more v behind hkey hv hcomma _ ih =>
      calc t
          <:+ skipBlanks more := ih
        _ <:+ more := skipBlanks_suffix more
        _ <:+ behind.1 := suffix_of_skipBlanks_eq_cons hcomma
        _ <:+ inner := suffix_of_readValue hv
        _ <:+ s := suffix_of_keyBefore hkey

section Text

variable {opening done s : List Char} {e : TooManyDigits}

theorem readUnicodeEscape_ne_overlong : readUnicodeEscape s ≠ .error (.overlong e) := by
  unfold readUnicodeEscape
  split
  · rintro ⟨⟩
  · split
    · split
      · split
        · rintro ⟨⟩
        · split <;> rintro ⟨⟩
      · rintro ⟨⟩
    · rintro ⟨⟩

theorem readEscape_ne_overlong : readEscape opening s ≠ .error (.overlong e) := by
  unfold readEscape
  split
  · rintro ⟨⟩
  · exact readUnicodeEscape_ne_overlong
  · split <;> rintro ⟨⟩

theorem readText_ne_overlong : readText opening done s ≠ .error (.overlong e) := by
  fun_induction readText opening done s with
  | case1 => rintro ⟨⟩
  | case2 => rintro ⟨⟩
  | case3 done more e' hescape =>
      rintro ⟨⟩
      exact readEscape_ne_overlong hescape
  | case4 _ _ _ _ _ _ ih => exact ih
  | case5 => rintro ⟨⟩
  | case6 _ _ _ _ _ _ ih => exact ih

end Text

section Halts

variable {inner s key : List Char} {e : Halt}

theorem readValue_list_eq_error (hopen : (skipBlanks inner).head? ≠ some ']')
    (h : readItems (skipBlanks inner) = .error e) : readValue ('[' :: inner) = .error e := by
  rw [readValue, if_neg (by decide), if_pos rfl]
  split
  · rename_i hclose
    exact absurd (congrArg List.head? hclose) hopen
  · rw [h]

theorem readValue_map_eq_error (hopen : (skipBlanks inner).head? ≠ some '\x7d')
    (h : readMembers (skipBlanks inner) = .error e) :
    readValue ('\x7b' :: inner) = .error e := by
  rw [readValue, if_neg (by decide), if_neg (by decide), if_pos rfl]
  split
  · rename_i hclose
    exact absurd (congrArg List.head? hclose) hopen
  · rw [h]

theorem readValue_scalar_eq_error {c : Char} (hc : c ≠ '"' ∧ c ≠ '[' ∧ c ≠ '\x7b')
    (h : readScalar (c :: s) = .error e) : readValue (c :: s) = .error e := by
  rw [readValue, if_neg hc.1, if_neg hc.2.1, if_neg hc.2.2]
  split
  · rename_i hhalted
    cases hhalted.symm.trans h
    rfl
  · rename_i hended
    cases hended.symm.trans h

theorem readItems_eq_error
    (h : readValue s = .error e ∨ ∃ v behind more, readValue s = .ok (v, behind) ∧
      skipBlanks behind.1 = ',' :: more ∧ readItems (skipBlanks more) = .error e) :
    readItems s = .error e := by
  rw [readItems]
  rcases h with h | ⟨v, behind, more, hv, hcomma, h⟩
  · rw [h]
  · rw [hv]
    dsimp only
    split
    · rename_i hclose
      cases hclose.symm.trans hcomma
    · rename_i hmore
      cases hmore.symm.trans hcomma
      rw [h]
    · rename_i hother
      exact absurd hcomma (hother more)

theorem readMembers_eq_error (hkey : KeyBefore s key inner)
    (h : readValue inner = .error e ∨ ∃ v behind more, readValue inner = .ok (v, behind) ∧
      skipBlanks behind.1 = ',' :: more ∧ readMembers (skipBlanks more) = .error e) :
    readMembers s = .error e := by
  obtain ⟨quoted, behindKey, behindColon, rfl, hread, hcolon, rfl⟩ := hkey
  rw [readMembers]
  split
  · rename_i hhalted
    cases hhalted.symm.trans hread
  · rename_i hended
    cases hended.symm.trans hread
    dsimp only
    split
    · rename_i hcolon'
      cases hcolon'.symm.trans hcolon
      rcases h with h | ⟨v, behind, more, hv, hcomma, h⟩
      · rw [h]
      · rw [hv]
        dsimp only
        split
        · rename_i hclose
          cases hclose.symm.trans hcomma
        · rename_i hmore
          cases hmore.symm.trans hcomma
          rw [h]
        · rename_i hother
          exact absurd hcomma (hother more)
    · rename_i hother
      exact absurd hcolon (hother behindColon)

theorem halts_of_comes {role : Role} {s t : List Char} (h : Comes role s t)
    (ht : readValue t = .error e) : role.Halts s e := by
  induction h with
  | here => exact ht
  | list hopen _ ih => exact readValue_list_eq_error hopen (ih ht)
  | map hopen _ ih => exact readValue_map_eq_error hopen (ih ht)
  | item _ ih => exact readItems_eq_error (Or.inl (ih ht))
  | nextItem hv hcomma _ ih =>
      exact readItems_eq_error (Or.inr ⟨_, _, _, hv, hcomma, ih ht⟩)
  | member hkey _ ih => exact readMembers_eq_error hkey (Or.inl (ih ht))
  | nextMember hkey hv hcomma _ ih =>
      exact readMembers_eq_error hkey (Or.inr ⟨_, _, _, hv, hcomma, ih ht⟩)

end Halts

section Overlong

variable {e : TooManyDigits}

theorem readValue_of_overlong {t : List Char} (h : Overlong t e) :
    readValue t = .error (.overlong e) := by
  have hscalar := readScalar_eq_overlong_iff.mpr h
  obtain ⟨n, rest, hbegins, -⟩ := h
  obtain ⟨d, more, hd, rfl | rfl⟩ := exists_digit_of_beginsNumber hbegins
  · refine readValue_scalar_eq_error ⟨?_, ?_, ?_⟩ hscalar <;> rintro rfl <;>
      exact absurd hd (by decide)
  · exact readValue_scalar_eq_error (by decide) hscalar

-- by the measure of the readers; of the ways to halt those remain in which a part halts
mutual

theorem exists_comes_of_readValue {s : List Char}
    (h : readValue s = .error (.overlong e)) : ∃ t, Comes .value s t ∧ Overlong t e := by
  have hread := valueRead s
  rw [h] at hread
  cases hread with
  | textHalted _ htext => exact absurd htext readText_ne_overlong
  | listHalted hs hopen hitems =>
      have := length_lt_of_cons hs
      obtain ⟨t, hcomes, ht⟩ := exists_comes_of_readItems hitems
      exact ⟨t, hs ▸ .list hopen hcomes, ht⟩
  | mapHalted hs hopen hmembers =>
      have := length_lt_of_cons hs
      obtain ⟨t, hcomes, ht⟩ := exists_comes_of_readMembers hmembers
      exact ⟨t, hs ▸ .map hopen hcomes, ht⟩
  | scalarHalted _ _ hscalar => exact ⟨s, .here, readScalar_eq_overlong_iff.mp hscalar⟩
termination_by 2 * s.length
decreasing_by all_goals omega

theorem exists_comes_of_readItems {s : List Char}
    (h : readItems s = .error (.overlong e)) : ∃ t, Comes .items s t ∧ Overlong t e := by
  have hread := itemsRead s
  rw [h] at hread
  cases hread with
  | halted hv =>
      obtain ⟨t, hcomes, ht⟩ := exists_comes_of_readValue hv
      exact ⟨t, .item hcomes, ht⟩
  | moreHalted hv hcomma hitems =>
      have := length_lt_of_comma hcomma
      obtain ⟨t, hcomes, ht⟩ := exists_comes_of_readItems hitems
      exact ⟨t, .nextItem hv hcomma hcomes, ht⟩
termination_by 2 * s.length + 1
decreasing_by all_goals omega

theorem exists_comes_of_readMembers {s : List Char}
    (h : readMembers s = .error (.overlong e)) : ∃ t, Comes .members s t ∧ Overlong t e := by
  have hread := membersRead s
  rw [h] at hread
  cases hread with
  | keyHalted _ htext => exact absurd htext readText_ne_overlong
  | halted hkey hv =>
      have := length_lt_of_keyBefore hkey
      obtain ⟨t, hcomes, ht⟩ := exists_comes_of_readValue hv
      exact ⟨t, .member hkey hcomes, ht⟩
  | moreHalted hkey hv hcomma hmembers =>
      have := length_lt_of_keyBefore hkey
      have := length_lt_of_comma hcomma
      obtain ⟨t, hcomes, ht⟩ := exists_comes_of_readMembers hmembers
      exact ⟨t, .nextMember hkey hv hcomma hcomes, ht⟩
termination_by 2 * s.length + 1
decreasing_by all_goals omega

end

/-- Reading a value halts at a number of too many digits exactly if it comes to one. -/
theorem readValue_eq_overlong_iff {s : List Char} :
    readValue s = .error (.overlong e) ↔ ∃ t, Comes .value s t ∧ Overlong t e := by
  refine ⟨exists_comes_of_readValue, ?_⟩
  rintro ⟨t, hcomes, ht⟩
  exact halts_of_comes hcomes (readValue_of_overlong ht)

theorem read_eq_overlong_iff {text : List Char} :
    read text = .error (.overlong e) ↔
      ∃ t, Comes .value (skipBlanks text) t ∧ Overlong t e := by
  rw [← readValue_eq_overlong_iff]
  unfold read
  split
  · rename_i hhalted
    rw [hhalted, Except.error.injEq, Except.error.injEq]
  · rename_i hended
    rw [hended]
    split <;> constructor <;> rintro ⟨⟩

theorem not_overlong_of_digitRunsWithin {text t : List Char}
    (htext : DigitRunsWithin digitLimit text) (hcomes : Comes .value (skipBlanks text) t) :
    ¬Overlong t e := by
  rintro ⟨n, rest, hbegins, -, -, -, hlong⟩
  have hinfix : t <:+: text :=
    ((suffix_of_comes hcomes).trans (skipBlanks_suffix text)).isInfix
  have hvalue := value_of_digitRunsWithin htext hbegins hinfix
  cases hvalue.symm.trans (value_eq_error_iff.mpr hlong)

end Overlong

end TreePath.Json
