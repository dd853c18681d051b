import TreePath.Proofs.Reading.RoundTrip

namespace TreePath.Numeral

open TreePath.Grammar
open TreePath.RoundTrip

/-- No zero is written in front of other digits or behind a minus sign. -/
def Shortest (n : Numeral) : Prop :=
  n.digits.head? = some '0' → n = ⟨false, ['0']⟩

section Digit

variable {c : Char}

/-- What a digit adds to a number of which it is the last. -/
def digitValue (c : Char) : Nat :=
  c.toNat - '0'.toNat

theorem toNat_of_isDigit (hc : IsDigit c) : 48 ≤ c.toNat ∧ c.toNat ≤ 57 :=
  hc

theorem digitValue_lt (hc : IsDigit c) : digitValue c < 10 := by
  have hbounds := toNat_of_isDigit hc
  change c.toNat - 48 < 10
  omega

theorem digitChar_digitValue (hc : IsDigit c) : (digitValue c).digitChar = c := by
  have hbounds := toNat_of_isDigit hc
  refine Char.toNat_inj.mp ?_
  rw [Nat.toNat_digitChar_of_lt_ten (digitValue_lt hc)]
  change 48 + (c.toNat - 48) = c.toNat
  omega

theorem toDigits_digitValue (hc : IsDigit c) : Nat.toDigits 10 (digitValue c) = [c] := by
  rw [Nat.toDigits_of_lt_base (digitValue_lt hc), digitChar_digitValue hc]

theorem digitValue_pos (hc : IsDigit c) (hzero : c ≠ '0') : 0 < digitValue c := by
  refine Nat.pos_of_ne_zero fun hvalue => hzero ?_
  rw [← digitChar_digitValue hc, hvalue]
  rfl

end Digit

section Digits

variable {ds : List Char}

theorem ofDigitChars_cons_digit (d : Char) (ds : List Char) (n : Nat) :
    Nat.ofDigitChars 10 (d :: ds) n = Nat.ofDigitChars 10 ds (10 * n + digitValue d) :=
  Nat.ofDigitChars_cons

theorem toDigits_ofDigitChars {n : Nat} (hn : 0 < n) (hds : ∀ d ∈ ds, IsDigit d) :
    Nat.toDigits 10 (Nat.ofDigitChars 10 ds n) = Nat.toDigits 10 n ++ ds := by
  induction ds generalizing n with
  | nil => rw [Nat.ofDigitChars_nil, List.append_nil]
  | cons d ds ih =>
      obtain ⟨hd, hrest⟩ := List.forall_mem_cons.mp hds
      have hmore : 0 < 10 * n + digitValue d := by omega
      rw [ofDigitChars_cons_digit, ih hmore hrest,
        ← Nat.toDigits_append_toDigits (by decide) hn (digitValue_lt hd),
        toDigits_digitValue hd, List.append_assoc, List.singleton_append]

theorem natDigits_ofDigits (hds : ∀ d ∈ ds, IsDigit d) (hne : ds ≠ [])
    (hzero : ds.head? ≠ some '0') :
    0 < ofDigits ds ∧ Decimal.natDigits (ofDigits ds) = ds := by
  obtain ⟨d, rest, rfl⟩ := List.exists_cons_of_ne_nil hne
  obtain ⟨hd, hrest⟩ := List.forall_mem_cons.mp hds
  have hpos : 0 < digitValue d := digitValue_pos hd fun h => hzero (congrArg some h)
  have hvalue : ofDigits (d :: rest) = Nat.ofDigitChars 10 rest (digitValue d) := by
    rw [ofDigits, ofDigitChars_cons_digit, Nat.mul_zero, Nat.zero_add]
  have hdigits : Decimal.natDigits (ofDigits (d :: rest)) = d :: rest := by
    rw [Decimal.natDigits, hvalue, toDigits_ofDigitChars hpos hrest,
      toDigits_digitValue hd, List.singleton_append]
  refine ⟨Nat.pos_of_ne_zero fun h => ?_, hdigits⟩
  rw [h] at hdigits
  exact hzero (congrArg List.head? hdigits.symm)

theorem head?_natDigits_ne_zero {n : Nat} (hn : 0 < n) :
    (Decimal.natDigits n).head? ≠ some '0' := by
  induction n using Nat.strongRecOn with
  | ind n ih =>
      rw [Decimal.natDigits, Nat.toDigits_eq_if (by decide)]
      split
      · rename_i hlt
        intro h
        have hzero : n.digitChar.toNat = '0'.toNat :=
          congrArg Char.toNat (Option.some.inj h)
        rw [Nat.toNat_digitChar_of_lt_ten hlt] at hzero
        change 48 + n = 48 at hzero
        omega
      · rw [List.head?_append_of_ne_nil _ Nat.toDigits_ne_nil]
        exact ih (n / 10) (by omega) (by omega)

end Digits

section Numeral

variable {n : Numeral}

theorem shortest_numeralOf (v : Int) : (numeralOf v).Shortest := by
  intro hzero
  by_cases hv : v = 0
  · subst hv
    rfl
  · exact absurd hzero (head?_natDigits_ne_zero (Int.natAbs_pos.mpr hv))

theorem numeralOf_toInt (hdigits : ∀ c ∈ n.digits, IsDigit c) (hne : n.digits ≠ [])
    (h : n.Shortest) : numeralOf n.toInt = n := by
  by_cases hzero : n.digits.head? = some '0'
  · rw [h hzero]
    rfl
  · obtain ⟨hpos, hvalue⟩ := natDigits_ofDigits hdigits hne hzero
    obtain ⟨negative, digits⟩ := n
    cases negative with
    | true =>
        change numeralOf (-(ofDigits digits : Int)) = _
        have hneg : -(ofDigits digits : Int) < 0 := by
          change 0 < ofDigits digits at hpos
          omega
        rw [numeralOf, Int.natAbs_neg, Int.natAbs_natCast, hvalue, decide_eq_true hneg]
    | false =>
        change numeralOf (ofDigits digits : Int) = _
        have hnonneg : ¬(ofDigits digits : Int) < 0 := by omega
        rw [numeralOf, Int.natAbs_natCast, hvalue, decide_eq_false hnonneg]

theorem shortest_iff (hdigits : ∀ c ∈ n.digits, IsDigit c) (hne : n.digits ≠ []) :
    n.Shortest ↔ Decimal.intDigits n.toInt = n.toList := by
  rw [← toList_numeralOf]
  constructor
  · intro h
    rw [numeralOf_toInt hdigits hne h]
  · intro h
    rw [← toList_injective_of_isDigit isDigit_of_mem_natDigits hdigits h]
    exact shortest_numeralOf _

end Numeral

end TreePath.Numeral
