import TreePath.Proofs.Json.Remainder
import TreePath.Proofs.Reading.Diagnosis

namespace TreePath.Json

open TreePath.Acceptance
open TreePath.Diagnosis (BeginsNumber)
open TreePath.Grammar
open TreePath.Leaf
open TreePath.Result

/-- No point with a digit behind it stands at the front. -/
def NoFraction (s : List Char) : Prop :=
  ∀ more, s = '.' :: more → Clear IsDigit more

/-- No digit stands at the front, nor a sign with a digit behind it. -/
def NoSigned (s : List Char) : Prop :=
  Clear IsDigit s ∧ ∀ sign more, s = sign :: more → sign = '-' ∨ sign = '+' →
    Clear IsDigit more

/-- No mark of an exponent with its digits behind it stands at the front. -/
def NoExponent (s : List Char) : Prop :=
  ∀ mark more, s = mark :: more → mark = 'e' ∨ mark = 'E' → NoSigned more

/-- At the front stands a whole number of more digits than can be read. What begins
with a zero is no such number, nor is one that goes on with a fraction or an exponent. -/
def Overlong (s : List Char) (e : TooManyDigits) : Prop :=
  ∃ n rest, BeginsNumber s n rest ∧ n.digits.head? ≠ some '0' ∧ NoFraction rest ∧
    NoExponent rest ∧ n.digits.length = e.count ∧ digitLimit < e.count

section Digits

variable {s digits rest : List Char}

theorem splitDigits?_eq_none_iff : splitDigits? s = none ↔ Clear IsDigit s := by
  unfold splitDigits?
  split
  · rename_i htake
    have hdrop := List.takeWhile_append_dropWhile (p := Char.isDigit) (l := s)
    rw [htake, List.nil_append] at hdrop
    rw [← hdrop]
    exact iff_of_true rfl (clear_dropWhile (fun _ => isDigit_iff) s)
  · rename_i hne
    refine iff_of_false nofun fun h => hne ?_
    exact takeWhile_eq_nil_of_clear (fun _ => isDigit_iff) h

theorem splitDigits?_eq_some_iff :
    splitDigits? s = some (digits, rest) ↔
      digits ≠ [] ∧ (∀ c ∈ digits, IsDigit c) ∧ Clear IsDigit rest ∧ s = digits ++ rest := by
  constructor
  · intro h
    unfold splitDigits? at h
    split at h <;> cases h
    rename_i hne
    exact ⟨hne, of_mem_takeWhile fun _ => isDigit_iff,
      clear_dropWhile (fun _ => isDigit_iff) s, List.takeWhile_append_dropWhile.symm⟩
  · rintro ⟨hne, hdigits, hrest, rfl⟩
    unfold splitDigits?
    rw [takeWhile_append_of_clear (fun _ => isDigit_iff) hdigits hrest,
      dropWhile_append_of_clear (fun _ => isDigit_iff) hdigits hrest]
    split
    · contradiction
    · rfl

end Digits

section Number

variable {s digits rest : List Char}

theorem splitFraction_eq_iff :
    splitFraction s = ([], rest) ↔ NoFraction s ∧ rest = s := by
  unfold splitFraction
  split
  · rename_i more
    cases h : splitDigits? more with
    | none =>
        have hclear := splitDigits?_eq_none_iff.mp h
        constructor
        · rintro ⟨⟩
          exact ⟨fun _ h => (List.cons.inj h).2 ▸ hclear, rfl⟩
        · rintro ⟨-, rfl⟩
          rfl
    | some r =>
        obtain ⟨hne, hdigits, -, rfl⟩ := splitDigits?_eq_some_iff.mp h
        constructor
        · intro hr
          exact absurd (congrArg Prod.fst hr) hne
        · rintro ⟨hno, -⟩
          obtain ⟨d, ds, hd⟩ := List.exists_cons_of_ne_nil hne
          rw [hd, List.cons_append] at hno
          exact absurd (hdigits d (hd ▸ List.mem_cons_self)) (clear_cons_iff.mp (hno _ rfl))
  · rename_i hpoint
    constructor
    · rintro ⟨⟩
      exact ⟨fun more h => absurd h (hpoint more), rfl⟩
    · rintro ⟨-, rfl⟩
      rfl

theorem noSigned_cons_iff {sign : Char} {more : List Char} (h : sign = '-' ∨ sign = '+') :
    NoSigned (sign :: more) ↔ Clear IsDigit more := by
  constructor
  · rintro ⟨-, hno⟩
    exact hno sign more rfl h
  · intro hmore
    refine ⟨clear_cons_iff.mpr ?_, ?_⟩
    · rcases h with rfl | rfl <;> decide
    · rintro _ _ ⟨⟩ -
      exact hmore

theorem splitSigned?_eq_none_iff : splitSigned? s = none ↔ NoSigned s := by
  unfold splitSigned?
  split <;> rw [Option.map_eq_none_iff, splitDigits?_eq_none_iff]
  · exact (noSigned_cons_iff (Or.inl rfl)).symm
  · exact (noSigned_cons_iff (Or.inr rfl)).symm
  · rename_i hminus hplus
    refine ⟨fun h => ⟨h, ?_⟩, fun h => h.1⟩
    rintro sign more rfl (rfl | rfl)
    · exact absurd rfl (hminus more)
    · exact absurd rfl (hplus more)

theorem splitExponent_eq_iff : splitExponent s = (none, rest) ↔ NoExponent s ∧ rest = s := by
  unfold splitExponent
  split
  · constructor
    · rintro ⟨⟩
      refine ⟨?_, rfl⟩
      rintro mark more ⟨⟩
    · rintro ⟨-, rfl⟩
      rfl
  · rename_i c more
    split
    · rename_i hmark
      split
      · rename_i hsigned
        constructor
        · rintro ⟨⟩
        · rintro ⟨hno, -⟩
          rw [splitSigned?_eq_none_iff.mpr (hno c more rfl hmark)] at hsigned
          cases hsigned
      · rename_i hsigned
        rw [Prod.mk.injEq, eq_comm (a := rest), eq_self, true_and]
        refine (and_iff_right ?_).symm
        rintro _ _ ⟨⟩ -
        exact splitSigned?_eq_none_iff.mp hsigned
    · rename_i hmark
      rw [Prod.mk.injEq, eq_comm (a := rest), eq_self, true_and]
      refine (and_iff_right ?_).symm
      rintro _ _ ⟨⟩ h
      exact absurd h hmark

theorem splitWhole?_eq_some_iff (hlong : 1 < digits.length) :
    splitWhole? s = some (digits, rest) ↔
      digits.head? ≠ some '0' ∧ splitDigits? s = some (digits, rest) := by
  unfold splitWhole?
  split
  · rename_i more
    constructor
    · rintro ⟨⟩
      exact absurd hlong (by decide)
    · rintro ⟨hzero, hsplit⟩
      obtain ⟨hne, -, -, hs⟩ := splitDigits?_eq_some_iff.mp hsplit
      obtain ⟨d, ds, rfl⟩ := List.exists_cons_of_ne_nil hne
      exact absurd (congrArg some (List.cons.inj hs).1.symm) hzero
  · rename_i hzero
    refine (and_iff_right_of_imp fun hsplit => ?_).symm
    obtain ⟨-, -, -, hs⟩ := splitDigits?_eq_some_iff.mp hsplit
    intro hhead
    obtain ⟨ds, rfl⟩ := List.head?_eq_some_iff.mp hhead
    exact hzero _ hs

theorem splitUnsigned?_eq_whole_iff {negative : Bool} (hlong : 1 < digits.length) :
    splitUnsigned? negative s = some (⟨negative, digits, [], none⟩, rest) ↔
      digits.head? ≠ some '0' ∧ splitDigits? s = some (digits, rest) ∧ NoFraction rest ∧
        NoExponent rest := by
  rw [← and_assoc, ← splitWhole?_eq_some_iff hlong]
  unfold splitUnsigned?
  constructor
  · intro h
    split at h
    · cases h
    · rename_i whole after hwhole
      rcases hfraction : splitFraction after with ⟨fraction, behind⟩
      rcases hexponent : splitExponent behind with ⟨exponent, last⟩
      rw [hfraction] at h
      dsimp only at h
      rw [hexponent] at h
      cases h
      obtain ⟨hnoFraction, rfl⟩ := splitFraction_eq_iff.mp hfraction
      obtain ⟨hnoExponent, rfl⟩ := splitExponent_eq_iff.mp hexponent
      exact ⟨hwhole, hnoFraction, hnoExponent⟩
  · rintro ⟨hwhole, hnoFraction, hnoExponent⟩
    rw [hwhole]
    dsimp only
    rw [splitFraction_eq_iff.mpr ⟨hnoFraction, rfl⟩]
    dsimp only
    rw [splitExponent_eq_iff.mpr ⟨hnoExponent, rfl⟩]

theorem negative_of_splitUnsigned? {negative : Bool} {n : NumberText}
    (h : splitUnsigned? negative s = some (n, rest)) : n.negative = negative := by
  unfold splitUnsigned? at h
  split at h <;> cases h
  rfl

theorem beginsNumber_iff :
    BeginsNumber s ⟨false, digits⟩ rest ↔ splitDigits? s = some (digits, rest) :=
  splitDigits?_eq_some_iff.symm

theorem beginsNumber_minus_iff :
    BeginsNumber ('-' :: s) ⟨true, digits⟩ rest ↔ splitDigits? s = some (digits, rest) := by
  rw [splitDigits?_eq_some_iff, ← List.cons_inj_right '-']
  exact Iff.rfl

theorem splitNumber?_eq_whole_iff {n : Numeral} (hlong : 1 < n.digits.length) :
    splitNumber? s = some (⟨n.negative, n.digits, [], none⟩, rest) ↔
      BeginsNumber s n rest ∧ n.digits.head? ≠ some '0' ∧ NoFraction rest ∧
        NoExponent rest := by
  obtain ⟨negative, digits⟩ := n
  unfold splitNumber?
  split
  · rename_i body
    cases negative with
    | true => rw [splitUnsigned?_eq_whole_iff hlong, beginsNumber_minus_iff, and_left_comm]
    | false =>
        refine iff_of_false (fun h => nomatch negative_of_splitUnsigned? h) fun h => ?_
        have hnone : splitDigits? ('-' :: body) = none :=
          splitDigits?_eq_none_iff.mpr (clear_cons_iff.mpr (by decide))
        cases hnone.symm.trans (beginsNumber_iff.mp h.1)
  · rename_i hminus
    cases negative with
    | true =>
        refine iff_of_false (fun h => nomatch negative_of_splitUnsigned? h) fun h => ?_
        exact hminus _ h.1.2.2.2
    | false => rw [splitUnsigned?_eq_whole_iff hlong, beginsNumber_iff, and_left_comm]

theorem value_eq_overlong_iff {n : NumberText} {e : TooManyDigits} :
    n.value = .error (.overlong e) ↔
      n.fraction = [] ∧ n.exponent = none ∧ n.whole.length = e.count ∧
        digitLimit < e.count := by
  unfold NumberText.value
  split
  · rename_i hfraction hexponent
    rw [hfraction, hexponent, eq_self, eq_self, true_and, true_and]
    rw [← value_eq_error_iff (n := ⟨n.negative, n.whole⟩)]
    cases (Numeral.mk n.negative n.whole).value with
    | ok i => exact iff_of_false nofun nofun
    | error e' => rw [Except.error.injEq, Halt.overlong.injEq, Except.error.injEq]
  · rename_i hwhole
    exact iff_of_false nofun fun h => hwhole h.1 h.2.1

theorem exists_digit_of_beginsNumber {n : Numeral} (h : BeginsNumber s n rest) :
    ∃ d more, IsDigit d ∧ (s = d :: more ∨ s = '-' :: d :: more) := by
  obtain ⟨negative, digits⟩ := n
  obtain ⟨hne, hdigits, -, rfl⟩ := h
  obtain ⟨d, ds, rfl⟩ := List.exists_cons_of_ne_nil hne
  refine ⟨d, ds ++ rest, hdigits d List.mem_cons_self, ?_⟩
  cases negative with
  | true => exact Or.inr rfl
  | false => exact Or.inl rfl

theorem readWord?_of_beginsNumber {n : Numeral} (h : BeginsNumber s n rest) :
    readWord? s = none := by
  refine Option.eq_none_iff_forall_ne_some.mpr fun r hr => ?_
  obtain ⟨word, hmem, hs⟩ := mem_words_of_readWord? hr
  obtain ⟨d, more, hd, hfront⟩ := exists_digit_of_beginsNumber h
  rw [hs] at hfront
  simp only [words, List.mem_cons, Prod.mk.injEq, List.not_mem_nil, or_false] at hmem
  rcases hmem with ⟨rfl, -⟩ | ⟨rfl, -⟩ | ⟨rfl, -⟩ | ⟨rfl, -⟩ | ⟨rfl, -⟩ | ⟨rfl, -⟩ <;>
    rcases hfront with hfront | hfront <;> cases hfront <;> exact absurd hd (by decide)

theorem readScalar_eq_overlong_iff {e : TooManyDigits} :
    readScalar s = .error (.overlong e) ↔ Overlong s e := by
  constructor
  · intro h
    unfold readScalar at h
    split at h
    · cases h
    · split at h
      · rename_i n rest hnumber
        obtain ⟨hfraction, hexponent, hcount, hlong⟩ :=
          value_eq_overlong_iff.mp (map_eq_error_iff.mp h)
        obtain ⟨negative, whole, _, _⟩ := n
        cases hfraction
        cases hexponent
        have hwhole : 1 < whole.length := by
          rw [hcount]
          exact Nat.lt_trans (by decide) hlong
        obtain ⟨hbegins, hzero, hnoFraction, hnoExponent⟩ :=
          (splitNumber?_eq_whole_iff (n := ⟨negative, whole⟩) hwhole).mp hnumber
        exact ⟨_, rest, hbegins, hzero, hnoFraction, hnoExponent, hcount, hlong⟩
      · cases h
  · rintro ⟨n, rest, hbegins, hzero, hnoFraction, hnoExponent, hcount, hlong⟩
    have hwhole : 1 < n.digits.length := by
      rw [hcount]
      exact Nat.lt_trans (by decide) hlong
    have hnumber := (splitNumber?_eq_whole_iff hwhole).mpr
      ⟨hbegins, hzero, hnoFraction, hnoExponent⟩
    unfold readScalar
    rw [readWord?_of_beginsNumber hbegins, hnumber]
    exact map_eq_error_iff.mpr (value_eq_overlong_iff.mpr ⟨rfl, rfl, hcount, hlong⟩)

end Number

end TreePath.Json
