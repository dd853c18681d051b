import TreePath.Text.Quoted

namespace TreePath.Text

section Hexadecimal

/-- What a hexadecimal digit in lower case stands for. -/
def hexDigitValue (c : Char) : Nat :=
  if c.isDigit then c.toNat - '0'.toNat else c.toNat - 'a'.toNat + 10

def hexNumber (digits : List Char) : Nat :=
  digits.foldl (fun n c => 16 * n + hexDigitValue c) 0

theorem hexDigitValue_digitChar : ∀ d < 16, hexDigitValue (Nat.digitChar d) = d := by
  decide

theorem hexNumber_append_digit (digits : List Char) (c : Char) :
    hexNumber (digits ++ [c]) = 16 * hexNumber digits + hexDigitValue c := by
  rw [hexNumber, List.foldl_append]
  rfl

theorem hexNumber_toDigits (n : Nat) : hexNumber (Nat.toDigits 16 n) = n := by
  induction n using Nat.strongRecOn with
  | _ n ih =>
      rw [Nat.toDigits_eq_if (by decide)]
      split
      · rename_i hn
        exact (Nat.zero_add _).trans (hexDigitValue_digitChar n hn)
      · rw [hexNumber_append_digit, ih (n / 16) (by omega),
          hexDigitValue_digitChar _ (Nat.mod_lt n (by decide))]
        exact Nat.div_add_mod n 16

theorem hexNumber_zeros_append (count : Nat) (digits : List Char) :
    hexNumber (List.replicate count '0' ++ digits) = hexNumber digits := by
  induction count with
  | zero => rfl
  | succ count ih => exact ih

theorem hexNumber_hexDigits (width n : Nat) : hexNumber (hexDigits width n) = n :=
  (hexNumber_zeros_append _ _).trans (hexNumber_toDigits n)

theorem length_hexDigits {width n : Nat} (hn : (Nat.toDigits 16 n).length ≤ width) :
    (hexDigits width n).length = width := by
  rw [hexDigits, List.length_append, List.length_replicate]
  exact Nat.sub_add_cancel hn

end Hexadecimal

section Character

/-- The character that so many hexadecimal digits stand for, and what is behind them. -/
def readHex (width : Nat) (s : List Char) : Char × List Char :=
  (Char.ofNat (hexNumber (s.take width)), s.drop width)

/-- The character of an escape, from behind the backslash, and what is behind it. -/
def readEscape? : List Char → Option (Char × List Char)
  | [] => none
  | 'n' :: rest => some ('\n', rest)
  | 'r' :: rest => some ('\r', rest)
  | 't' :: rest => some ('\t', rest)
  | 'x' :: rest => some (readHex 2 rest)
  | 'u' :: rest => some (readHex 4 rest)
  | 'U' :: rest => some (readHex 8 rest)
  | c :: rest => some (c, rest)

/-- The next character within a literal; before the closing quote there is none. -/
def readChar? (quote : Char) : List Char → Option (Char × List Char)
  | [] => none
  | c :: rest =>
    if c = quote then none else if c = '\\' then readEscape? rest else some (c, rest)

variable {quote : Char} (c : Char) (rest : List Char)

theorem readChar?_quote : readChar? quote (quote :: rest) = none :=
  if_pos rfl

theorem readChar?_backslash (hquote : quote ≠ '\\') :
    readChar? quote ('\\' :: rest) = readEscape? rest := by
  rw [readChar?, if_neg hquote.symm, if_pos rfl]

theorem readHex_hexDigits {width : Nat} (hc : (Nat.toDigits 16 c.toNat).length ≤ width) :
    readHex width (hexDigits width c.toNat ++ rest) = (c, rest) := by
  have hlength := length_hexDigits hc
  rw [readHex, List.take_left' hlength, List.drop_left' hlength, hexNumber_hexDigits,
    Char.ofNat_toNat]

theorem readChar?_hexEscape (hquote : quote ≠ '\\') :
    readChar? quote (hexEscape c.toNat ++ rest) = some (c, rest) := by
  have hdigits : ∀ width, 0 < width → c.toNat < 16 ^ width →
      some (readHex width (hexDigits width c.toNat ++ rest)) = some (c, rest) := by
    intro width hwidth hc
    have hlength := (Nat.length_toDigits_le_iff (by decide) hwidth).mpr hc
    rw [readHex_hexDigits c rest hlength]
  unfold hexEscape
  split
  · exact (readChar?_backslash _ hquote).trans (hdigits 2 (by decide) (by omega))
  · split
    · exact (readChar?_backslash _ hquote).trans (hdigits 4 (by decide) (by omega))
    · exact (readChar?_backslash _ hquote).trans (hdigits 8 (by decide) c.val.toNat_lt)

theorem readChar?_escapeChar (plain : Char → Bool)
    (hquote : quote = singleQuote ∨ quote = doubleQuote) :
    readChar? quote (escapeChar plain quote c ++ rest) = some (c, rest) := by
  have hslash : quote ≠ '\\' := by
    rcases hquote with rfl | rfl <;> decide
  unfold escapeChar
  split
  · rename_i hc
    refine (readChar?_backslash _ hslash).trans ?_
    rcases hc with rfl | rfl
    · rcases hquote with rfl | rfl <;> rfl
    · rfl
  · rename_i hc
    rw [not_or] at hc
    split
    · rename_i letter hletter
      refine (readChar?_backslash _ hslash).trans ?_
      unfold escapeLetter? at hletter
      split at hletter <;> cases hletter <;> rfl
    · split
      · exact (if_neg hc.1).trans (if_neg hc.2)
      · exact readChar?_hexEscape c rest hslash

end Character

section Literal

variable {s t rest behind : List Char}

theorem quoteFor_cases (s : List Char) :
    quoteFor s = singleQuote ∨ quoteFor s = doubleQuote := by
  unfold quoteFor
  split
  · exact .inr rfl
  · exact .inl rfl

theorem eq_of_escaped {plain : Char → Bool} {quote : Char}
    (hquote : quote = singleQuote ∨ quote = doubleQuote)
    (h : s.flatMap (escapeChar plain quote) ++ quote :: rest =
      t.flatMap (escapeChar plain quote) ++ quote :: behind) :
    s = t ∧ rest = behind := by
  induction s generalizing t with
  | nil =>
      cases t with
      | nil => exact ⟨rfl, List.tail_eq_of_cons_eq h⟩
      | cons d t =>
          have hread := congrArg (readChar? quote) h
          rw [List.flatMap_cons, List.append_assoc, readChar?_escapeChar _ _ _ hquote] at hread
          cases (readChar?_quote rest).symm.trans hread
  | cons c s ih =>
      have hread := congrArg (readChar? quote) h
      rw [List.flatMap_cons, List.append_assoc, readChar?_escapeChar _ _ _ hquote] at hread
      cases t with
      | nil => cases hread.trans (readChar?_quote behind)
      | cons d t =>
          rw [List.flatMap_cons, List.append_assoc, readChar?_escapeChar _ _ _ hquote] at hread
          obtain ⟨rfl, htail⟩ := Prod.mk.inj (Option.some.inj hread)
          obtain ⟨rfl, hrest⟩ := ih htail
          exact ⟨rfl, hrest⟩

theorem quoted_append_injective (h : quoted s ++ rest = quoted t ++ behind) :
    s = t ∧ rest = behind := by
  simp only [quoted, quotedWith, List.cons_append, List.append_assoc, List.nil_append] at h
  obtain ⟨hquote, hescaped⟩ := List.cons.inj h
  rw [hquote] at hescaped
  exact eq_of_escaped (quoteFor_cases t) hescaped

end Literal

end TreePath.Text
