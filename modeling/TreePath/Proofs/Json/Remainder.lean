import Mathlib.Data.List.Infix
import TreePath.Proofs.Json.Cases

namespace TreePath.Json

theorem skipBlanks_suffix (s : List Char) : skipBlanks s <:+ s :=
  List.dropWhile_suffix isBlank

section Text

variable {opening done s text rest : List Char}

theorem suffix_of_hexUnit? {n : Nat} (h : hexUnit? s = some (n, rest)) : rest <:+ s := by
  unfold hexUnit? at h
  split at h
  · rename_i a b c d e more
    split at h <;> cases h
    exact ⟨[a, b, c, d], rfl⟩
  · cases h

theorem suffix_of_readUnicodeEscape {c : Char} (h : readUnicodeEscape s = .ok (c, rest)) :
    rest <:+ s := by
  unfold readUnicodeEscape at h
  split at h
  · cases h
  · rename_i unit after hunit
    have hafter := suffix_of_hexUnit? hunit
    split at h
    · rename_i more
      have hmore : more <:+ s := (List.suffix_append ['\\', 'u'] more).trans hafter
      split at h
      · split at h
        · cases h
        · rename_i second tail hsecond
          have htail := (suffix_of_hexUnit? hsecond).trans hmore
          split at h
          · obtain ⟨-, rfl⟩ := Prod.mk.inj (Except.ok.inj h)
            exact htail
          · cases h
            exact hafter
      · cases h
        exact hafter
    · cases h
      exact hafter

theorem suffix_of_readEscape {c : Char} (h : readEscape opening s = .ok (c, rest)) :
    rest <:+ s := by
  unfold readEscape at h
  split at h
  · cases h
  · exact (suffix_of_readUnicodeEscape h).trans (List.suffix_cons _ _)
  · split at h <;> cases h
    exact List.suffix_cons _ _

theorem suffix_of_readText (h : readText opening done s = .ok (text, rest)) :
    rest <:+ s := by
  fun_induction readText opening done s with
  | case1 => cases h
  | case2 =>
      cases h
      exact List.suffix_cons _ _
  | case3 => cases h
  | case4 _ more _ after hescape _ ih =>
      exact (ih h).trans ((suffix_of_readEscape hescape).trans (List.suffix_cons '\\' more))
  | case5 => cases h
  | case6 _ c more _ _ _ ih => exact (ih h).trans (List.suffix_cons c more)

end Text

section Number

variable {s rest : List Char}

theorem suffix_of_splitDigits? {digits : List Char}
    (h : splitDigits? s = some (digits, rest)) : rest <:+ s := by
  unfold splitDigits? at h
  split at h <;> cases h
  exact List.dropWhile_suffix Char.isDigit

theorem suffix_of_splitWhole? {digits : List Char}
    (h : splitWhole? s = some (digits, rest)) : rest <:+ s := by
  unfold splitWhole? at h
  split at h
  · cases h
    exact List.suffix_cons _ _
  · exact suffix_of_splitDigits? h

theorem splitFraction_suffix (s : List Char) : (splitFraction s).2 <:+ s := by
  unfold splitFraction
  split
  · rename_i more
    cases h : splitDigits? more with
    | none => exact List.suffix_refl _
    | some r => exact (suffix_of_splitDigits? h).trans (List.suffix_cons '.' more)
  · exact List.suffix_refl s

theorem suffix_of_splitSigned? {n : Numeral} (h : splitSigned? s = some (n, rest)) :
    rest <:+ s := by
  unfold splitSigned? at h
  split at h <;> obtain ⟨r, hr, hrest⟩ := Option.map_eq_some_iff.mp h <;> cases hrest
  · exact (suffix_of_splitDigits? hr).trans (List.suffix_cons _ _)
  · exact (suffix_of_splitDigits? hr).trans (List.suffix_cons _ _)
  · exact suffix_of_splitDigits? hr

theorem splitExponent_suffix (s : List Char) : (splitExponent s).2 <:+ s := by
  unfold splitExponent
  split
  · exact List.suffix_refl _
  · rename_i c more
    split
    · split
      · rename_i h
        exact (suffix_of_splitSigned? h).trans (List.suffix_cons c more)
      · exact List.suffix_refl _
    · exact List.suffix_refl _

theorem suffix_of_splitUnsigned? {negative : Bool} {n : NumberText}
    (h : splitUnsigned? negative s = some (n, rest)) : rest <:+ s := by
  unfold splitUnsigned? at h
  split at h <;> cases h
  rename_i whole after hwhole
  exact (splitExponent_suffix _).trans
    ((splitFraction_suffix after).trans (suffix_of_splitWhole? hwhole))

theorem suffix_of_splitNumber? {n : NumberText} (h : splitNumber? s = some (n, rest)) :
    rest <:+ s := by
  unfold splitNumber? at h
  split at h
  · exact (suffix_of_splitUnsigned? h).trans (List.suffix_cons _ _)
  · exact suffix_of_splitUnsigned? h

end Number

section Value

variable {s : List Char}

theorem suffix_of_readWord? {v : Value} {rest : List Char}
    (h : readWord? s = some (v, rest)) : rest <:+ s := by
  obtain ⟨word, -, rfl⟩ := mem_words_of_readWord? h
  exact List.suffix_append word rest

theorem suffix_of_readScalar {v : Value} {rest : List Char}
    (h : readScalar s = .ok (v, rest)) : rest <:+ s := by
  unfold readScalar at h
  split at h
  · rename_i hword
    cases h
    exact suffix_of_readWord? hword
  · split at h
    · rename_i n after hnumber
      cases hn : n.value with
      | error e =>
          rw [hn] at h
          cases h
      | ok w =>
          rw [hn] at h
          cases h
          exact suffix_of_splitNumber? hnumber
    · cases h

theorem suffix_of_keyBefore {key inner : List Char} (h : KeyBefore s key inner) :
    inner <:+ s := by
  obtain ⟨quoted, behindKey, behindColon, rfl, hkey, hcolon, rfl⟩ := h
  calc skipBlanks behindColon
      <:+ behindColon := skipBlanks_suffix behindColon
    _ <:+ skipBlanks behindKey := hcolon ▸ List.suffix_cons ':' behindColon
    _ <:+ behindKey := skipBlanks_suffix behindKey
    _ <:+ quoted := suffix_of_readText hkey
    _ <:+ '"' :: quoted := List.suffix_cons '"' quoted

theorem suffix_of_skipBlanks_eq_cons {c : Char} {more : List Char}
    (h : skipBlanks s = c :: more) : more <:+ s :=
  (h ▸ List.suffix_cons c more).trans (skipBlanks_suffix s)

theorem skipBlanks_suffix_of_cons {c : Char} {inner : List Char} (h : s = c :: inner) :
    skipBlanks inner <:+ s :=
  h ▸ (skipBlanks_suffix inner).trans (List.suffix_cons c inner)

end Value

mutual

theorem suffix_of_readValue {s : List Char} {v : Value} {rest : Rest s}
    (h : readValue s = .ok (v, rest)) : rest.1 <:+ s := by
  have hread := valueRead s
  rw [h] at hread
  cases hread with
  | text hs htext => exact (suffix_of_readText htext).trans (hs ▸ List.suffix_cons _ _)
  | emptyList hs hend =>
      exact (suffix_of_skipBlanks_eq_cons hend).trans (hs ▸ List.suffix_cons _ _)
  | list hs _ hitems hrest =>
      have := length_lt_of_cons hs
      rw [hrest]
      exact (suffix_of_readItems hitems).trans (skipBlanks_suffix_of_cons hs)
  | emptyMap hs hend =>
      exact (suffix_of_skipBlanks_eq_cons hend).trans (hs ▸ List.suffix_cons _ _)
  | map hs _ hmembers hrest =>
      have := length_lt_of_cons hs
      rw [hrest]
      exact (suffix_of_readMembers hmembers).trans (skipBlanks_suffix_of_cons hs)
  | scalar _ _ hscalar => exact suffix_of_readScalar hscalar
termination_by 2 * s.length
decreasing_by all_goals omega

theorem suffix_of_readItems {s : List Char} {items : List Value} {rest : Rest s}
    (h : readItems s = .ok (items, rest)) : rest.1 <:+ s := by
  have hread := itemsRead s
  rw [h] at hread
  cases hread with
  | last hv hend =>
      exact (suffix_of_skipBlanks_eq_cons hend).trans (suffix_of_readValue hv)
  | @more _ behind _ more _ after hv hcomma hitems hrest =>
      have := length_lt_of_comma hcomma
      rw [hrest]
      calc after.1
          <:+ skipBlanks more := suffix_of_readItems hitems
        _ <:+ more := skipBlanks_suffix more
        _ <:+ behind.1 := suffix_of_skipBlanks_eq_cons hcomma
        _ <:+ s := suffix_of_readValue hv
termination_by 2 * s.length + 1
decreasing_by all_goals omega

theorem suffix_of_readMembers {s : List Char} {members : List (String × Value)}
    {rest : Rest s} (h : readMembers s = .ok (members, rest)) : rest.1 <:+ s := by
  have hread := membersRead s
  rw [h] at hread
  cases hread with
  | last hkey hv hend =>
      have := length_lt_of_keyBefore hkey
      exact (suffix_of_skipBlanks_eq_cons hend).trans
        ((suffix_of_readValue hv).trans (suffix_of_keyBefore hkey))
  | @more _ inner more _ behind _ _ after hkey hv hcomma hmembers hrest =>
      have := length_lt_of_keyBefore hkey
      have := length_lt_of_comma hcomma
      rw [hrest]
      calc after.1
          <:+ skipBlanks more := suffix_of_readMembers hmembers
        _ <:+ more := skipBlanks_suffix more
        _ <:+ behind.1 := suffix_of_skipBlanks_eq_cons hcomma
        _ <:+ inner := suffix_of_readValue hv
        _ <:+ s := suffix_of_keyBefore hkey
termination_by 2 * s.length + 1
decreasing_by all_goals omega

end

end TreePath.Json
