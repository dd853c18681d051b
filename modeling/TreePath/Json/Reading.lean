import TreePath.Numeral
import TreePath.Text.Encoding
import TreePath.Value.Basic

/-!
JSON texts. Beyond the strict format `NaN`, `Infinity` and `-Infinity` are numbers; a number without
fraction and exponent is whole, and of repeated keys the last one counts.
-/

namespace TreePath.Json

/-- What makes a JSON text malformed. -/
inductive Flaw where
  | byteOrderMark
  | valueExpected
  | commaExpected
  | colonExpected
  | keyExpected
  | extraData
  | openText
  | controlCharacter
  | badEscape
  | badUnicodeEscape
deriving DecidableEq, Repr

def Flaw.message : Flaw → String
  | byteOrderMark => "Unexpected UTF-8 BOM (decode using utf-8-sig)"
  | valueExpected => "Expecting value"
  | commaExpected => "Expecting ',' delimiter"
  | colonExpected => "Expecting ':' delimiter"
  | keyExpected => "Expecting property name enclosed in double quotes"
  | extraData => "Extra data"
  | openText => "Unterminated string starting at"
  | controlCharacter => "Invalid control character at"
  | badEscape => "Invalid \\escape"
  | badUnicodeEscape => "Invalid \\uXXXX escape"

/-- Why reading came to a halt: a flaw, with the text that remained there, or a number too long. -/
inductive Halt where
  | flawed (flaw : Flaw) (rest : List Char)
  | overlong (e : TooManyDigits)
deriving DecidableEq, Repr

def isBlank (c : Char) : Bool := c == ' ' || c == '\t' || c == '\n' || c == '\r'

def skipBlanks (s : List Char) : List Char := s.dropWhile isBlank

def hexValue? (c : Char) : Option Nat :=
  if c.isDigit then some (c.toNat - '0'.toNat)
  else if 'a' ≤ c ∧ c ≤ 'f' then some (c.toNat - 'a'.toNat + 10)
  else if 'A' ≤ c ∧ c ≤ 'F' then some (c.toNat - 'A'.toNat + 10)
  else none

/-- Four hexadecimal digits with at least one more character behind them. -/
def hexUnit? : List Char → Option (Nat × List Char)
  | a :: b :: c :: d :: e :: rest =>
    match hexValue? a, hexValue? b, hexValue? c, hexValue? d with
    | some a, some b, some c, some d => some (((a * 16 + b) * 16 + c) * 16 + d, e :: rest)
    | _, _, _, _ => none
  | _ => none

/-- The characters that stand for another behind a backslash. -/
def unescape? : Char → Option Char
  | '"' => some '"'
  | '\\' => some '\\'
  | '/' => some '/'
  | 'b' => some '\x08'
  | 'f' => some '\x0c'
  | 'n' => some '\n'
  | 'r' => some '\r'
  | 't' => some '\t'
  | _ => none

/-- The character written by an escape of four digits, from behind the `u`. A high surrogate takes a
second escape with it if that is a low one. -/
def readUnicodeEscape (s : List Char) : Except Halt (Char × List Char) :=
  match hexUnit? s with
  | none => .error (.flawed .badUnicodeEscape ('u' :: s))
  | some (unit, rest) =>
    match rest with
    | '\\' :: 'u' :: more =>
      if Text.isHighSurrogate unit && 4 < more.length then
        match hexUnit? more with
        | none => .error (.flawed .badUnicodeEscape ('u' :: more))
        | some (second, after) =>
          if Text.isLowSurrogate second then .ok (Char.ofNat (Text.joinSurrogates unit second), after)
          else .ok (Text.charOfCode unit, rest)
      else .ok (Text.charOfCode unit, rest)
    | _ => .ok (Text.charOfCode unit, rest)

/-- The character written by an escape, from behind the backslash; `opening` is the text from the
string's opening quote on. -/
def readEscape (opening : List Char) : List Char → Except Halt (Char × List Char)
  | [] => .error (.flawed .openText opening)
  | 'u' :: rest => readUnicodeEscape rest
  | c :: rest =>
    match unescape? c with
    | some e => .ok (e, rest)
    | none => .error (.flawed .badEscape ('\\' :: c :: rest))

theorem length_of_hexUnit? {s rest : List Char} {n : Nat} (h : hexUnit? s = some (n, rest)) :
    rest.length + 4 = s.length := by
  unfold hexUnit? at h
  split at h
  · split at h
    · simp only [Option.some.injEq, Prod.mk.injEq] at h
      rw [← h.2]
      rfl
    · cases h
  · cases h

theorem length_le_of_readUnicodeEscape {s rest : List Char} {c : Char}
    (h : readUnicodeEscape s = .ok (c, rest)) : rest.length ≤ s.length := by
  unfold readUnicodeEscape at h
  split at h
  · cases h
  · next unit after hu =>
    have hl := length_of_hexUnit? hu
    split at h
    · next more =>
      split at h
      · split at h
        · cases h
        · next second tail h2 =>
          have := length_of_hexUnit? h2
          simp only [List.length_cons] at hl
          split at h
          · simp only [Except.ok.injEq, Prod.mk.injEq] at h
            rw [← h.2]
            omega
          · simp only [Except.ok.injEq, Prod.mk.injEq] at h
            rw [← h.2]
            simp only [List.length_cons]
            omega
      · simp only [Except.ok.injEq, Prod.mk.injEq] at h
        rw [← h.2]
        simp only [List.length_cons] at hl ⊢
        omega
    · simp only [Except.ok.injEq, Prod.mk.injEq] at h
      rw [← h.2]
      omega

theorem length_lt_of_readEscape {opening s rest : List Char} {c : Char}
    (h : readEscape opening s = .ok (c, rest)) : rest.length < s.length := by
  unfold readEscape at h
  split at h
  · cases h
  · have := length_le_of_readUnicodeEscape h
    simp only [List.length_cons]
    omega
  · split at h
    · cases h
      simp
    · cases h

/-- A string from behind its opening quote: its characters and what follows the closing quote. The
characters read so far are in `done`, last first. -/
def readText (opening done s : List Char) : Except Halt (List Char × List Char) :=
  match s with
  | [] => .error (.flawed .openText opening)
  | c :: rest =>
    if c = '"' then .ok (done.reverse, rest)
    else if c = '\\' then
      match _h : readEscape opening rest with
      | .error e => .error e
      | .ok (e, after) => readText opening (e :: done) after
    else if c.toNat < 0x20 then .error (.flawed .controlCharacter (c :: rest))
    else readText opening (c :: done) rest
termination_by s.length
decreasing_by
  · have := length_lt_of_readEscape ‹_›
    simp only [List.length_cons]
    omega
  · simp

theorem length_lt_of_readText {opening done s text rest : List Char}
    (h : readText opening done s = .ok (text, rest)) : rest.length < s.length := by
  fun_induction readText opening done s with
  | case1 => cases h
  | case2 =>
    cases h
    simp
  | case3 => cases h
  | case4 =>
    rename_i hr _ ih
    have := ih h
    have := length_lt_of_readEscape hr
    simp only [List.length_cons]
    omega
  | case5 => cases h
  | case6 =>
    rename_i ih
    have := ih h
    simp only [List.length_cons]
    omega

/-- The digits at the start of a text, if there are any, and what follows them. -/
def splitDigits? (s : List Char) : Option (List Char × List Char) :=
  match s.takeWhile Char.isDigit with
  | [] => none
  | digits => some (digits, s.dropWhile Char.isDigit)

theorem length_lt_of_splitDigits? {s digits rest : List Char}
    (h : splitDigits? s = some (digits, rest)) : rest.length < s.length := by
  have hl := congrArg List.length (List.takeWhile_append_dropWhile (p := Char.isDigit) (l := s))
  rw [List.length_append] at hl
  unfold splitDigits? at h
  split at h
  · cases h
  · next hd =>
    cases h
    have := List.length_pos_iff.2 hd
    omega

/-- The parts of a number as written. -/
structure NumberText where
  negative : Bool
  whole : List Char
  fraction : List Char
  exponent : Option Numeral
deriving DecidableEq, Repr

/-- Either a single zero or digits without a zero in front. -/
def splitWhole? : List Char → Option (List Char × List Char)
  | '0' :: rest => some (['0'], rest)
  | s => splitDigits? s

/-- A point counts only with a digit behind it. -/
def splitFraction : List Char → List Char × List Char
  | '.' :: rest => (splitDigits? rest).getD ([], '.' :: rest)
  | s => ([], s)

/-- The digits of an exponent, from behind its mark, with a sign that may be left out. -/
def splitSigned? : List Char → Option (Numeral × List Char)
  | '-' :: rest => (splitDigits? rest).map fun r => (⟨true, r.1⟩, r.2)
  | '+' :: rest => (splitDigits? rest).map fun r => (⟨false, r.1⟩, r.2)
  | s => (splitDigits? s).map fun r => (⟨false, r.1⟩, r.2)

/-- An exponent counts only with a digit in it. -/
def splitExponent : List Char → Option Numeral × List Char
  | [] => (none, [])
  | c :: rest =>
    if c = 'e' ∨ c = 'E' then
      match splitSigned? rest with
      | some (numeral, after) => (some numeral, after)
      | none => (none, c :: rest)
    else (none, c :: rest)

def splitUnsigned? (negative : Bool) (s : List Char) : Option (NumberText × List Char) :=
  match splitWhole? s with
  | none => none
  | some (whole, afterWhole) =>
    let fraction := splitFraction afterWhole
    let exponent := splitExponent fraction.2
    some (⟨negative, whole, fraction.1, exponent.1⟩, exponent.2)

/-- The longest number at the start of a text. -/
def splitNumber? : List Char → Option (NumberText × List Char)
  | '-' :: rest => splitUnsigned? true rest
  | s => splitUnsigned? false s

/-- Whole without fraction and exponent, otherwise the nearest float. -/
def NumberText.value (n : NumberText) : Except Halt Value :=
  match n.fraction, n.exponent with
  | [], none =>
    match (Numeral.mk n.negative n.whole).value with
    | .ok i => .ok (.int i)
    | .error e => .error (.overlong e)
  | fraction, exponent =>
    let power := (exponent.map Numeral.toInt).getD 0
    let size := Decimal.Scaled.toFloat ⟨Numeral.ofDigits (n.whole ++ fraction), power - fraction.length⟩
    .ok (.float (if n.negative then -size else size))

theorem length_lt_of_splitWhole? {s digits rest : List Char}
    (h : splitWhole? s = some (digits, rest)) : rest.length < s.length := by
  unfold splitWhole? at h
  split at h
  · cases h
    simp
  · exact length_lt_of_splitDigits? h

theorem length_splitFraction_le (s : List Char) : (splitFraction s).2.length ≤ s.length := by
  unfold splitFraction
  split
  · next rest =>
    cases h : splitDigits? rest with
    | none => simp
    | some r =>
      have := length_lt_of_splitDigits? h
      simp only [Option.getD_some, List.length_cons]
      omega
  · simp

theorem length_lt_of_splitSigned? {s rest : List Char} {n : Numeral}
    (h : splitSigned? s = some (n, rest)) : rest.length < s.length := by
  unfold splitSigned? at h
  split at h <;> simp only [Option.map_eq_some_iff, Prod.mk.injEq] at h
  · obtain ⟨r, hr, -, rfl⟩ := h
    have := length_lt_of_splitDigits? hr
    simp only [List.length_cons]
    omega
  · obtain ⟨r, hr, -, rfl⟩ := h
    have := length_lt_of_splitDigits? hr
    simp only [List.length_cons]
    omega
  · obtain ⟨r, hr, -, rfl⟩ := h
    exact length_lt_of_splitDigits? hr

theorem length_splitExponent_le (s : List Char) : (splitExponent s).2.length ≤ s.length := by
  unfold splitExponent
  split
  · simp
  · split
    · split
      · next h =>
        have := length_lt_of_splitSigned? h
        simp only [List.length_cons]
        omega
      · simp
    · simp

theorem length_lt_of_splitUnsigned? {negative : Bool} {s rest : List Char} {n : NumberText}
    (h : splitUnsigned? negative s = some (n, rest)) : rest.length < s.length := by
  unfold splitUnsigned? at h
  split at h
  · cases h
  · next whole after hw =>
    cases h
    have := length_lt_of_splitWhole? hw
    have := length_splitFraction_le after
    have := length_splitExponent_le (splitFraction after).2
    omega

theorem length_lt_of_splitNumber? {s rest : List Char} {n : NumberText}
    (h : splitNumber? s = some (n, rest)) : rest.length < s.length := by
  unfold splitNumber? at h
  split at h
  · have := length_lt_of_splitUnsigned? h
    simp only [List.length_cons]
    omega
  · exact length_lt_of_splitUnsigned? h

/-- The values that are written as a word. -/
def readWord? : List Char → Option (Value × List Char)
  | 'n' :: 'u' :: 'l' :: 'l' :: rest => some (.null, rest)
  | 't' :: 'r' :: 'u' :: 'e' :: rest => some (.bool true, rest)
  | 'f' :: 'a' :: 'l' :: 's' :: 'e' :: rest => some (.bool false, rest)
  | 'N' :: 'a' :: 'N' :: rest => some (.float (0.0 / 0.0), rest)
  | 'I' :: 'n' :: 'f' :: 'i' :: 'n' :: 'i' :: 't' :: 'y' :: rest => some (.float (1.0 / 0.0), rest)
  | '-' :: 'I' :: 'n' :: 'f' :: 'i' :: 'n' :: 'i' :: 't' :: 'y' :: rest =>
    some (.float (-(1.0 / 0.0)), rest)
  | _ => none

/-- A word or a number. -/
def readScalar (s : List Char) : Except Halt (Value × List Char) :=
  match readWord? s with
  | some r => .ok r
  | none =>
    match splitNumber? s with
    | some (n, rest) => n.value.map fun v => (v, rest)
    | none => .error (.flawed .valueExpected s)

theorem length_lt_of_readScalar {s rest : List Char} {v : Value}
    (h : readScalar s = .ok (v, rest)) : rest.length < s.length := by
  unfold readScalar at h
  split at h
  · next hw =>
    cases h
    unfold readWord? at hw
    split at hw <;> cases hw <;> simp only [List.length_cons] <;> omega
  · split at h
    · next n r hn =>
      cases hv : n.value with
      | error e => simp [hv, Except.map] at h
      | ok w =>
        simp only [hv, Except.map, Except.ok.injEq, Prod.mk.injEq] at h
        obtain ⟨-, rfl⟩ := h
        exact length_lt_of_splitNumber? hn
    · cases h

theorem length_skipBlanks_le (s : List Char) : (skipBlanks s).length ≤ s.length :=
  (List.dropWhile_suffix isBlank).length_le

/-- What is left of a text after something was read from its front. -/
abbrev Rest (s : List Char) := { rest : List Char // rest.length < s.length }

mutual

/-- Reads the value that starts a text. -/
def readValue (s : List Char) : Except Halt (Value × Rest s) :=
  match s with
  | [] => .error (.flawed .valueExpected [])
  | c :: rest =>
    have hb := length_skipBlanks_le rest
    if c = '"' then
      match h : readText (c :: rest) [] rest with
      | .error e => .error e
      | .ok (text, after) =>
        .ok (.str (String.ofList text), ⟨after, by
          have := length_lt_of_readText h
          simp only [List.length_cons]
          omega⟩)
    else if c = '[' then
      match h : skipBlanks rest with
      | ']' :: after =>
        .ok (.list [], ⟨after, by
          simp only [h, List.length_cons] at hb ⊢
          omega⟩)
      | inner =>
        match readItems inner with
        | .error e => .error e
        | .ok (items, after) =>
          .ok (.list items, ⟨after.1, by
            have := after.2
            simp only [h, List.length_cons] at hb ⊢
            omega⟩)
    else if c = '\x7b' then
      match h : skipBlanks rest with
      | '\x7d' :: after =>
        .ok (.map [], ⟨after, by
          simp only [h, List.length_cons] at hb ⊢
          omega⟩)
      | inner =>
        match readMembers inner with
        | .error e => .error e
        | .ok (members, after) =>
          .ok (.map (entriesOf members), ⟨after.1, by
            have := after.2
            simp only [h, List.length_cons] at hb ⊢
            omega⟩)
    else
      match h : readScalar (c :: rest) with
      | .error e => .error e
      | .ok (v, after) => .ok (v, ⟨after, length_lt_of_readScalar h⟩)
termination_by 2 * s.length
decreasing_by
  all_goals
    simp only [h, List.length_cons] at hb ⊢
    omega

/-- Reads the elements of an array, of which there is at least one, and the closing bracket. -/
def readItems (s : List Char) : Except Halt (List Value × Rest s) :=
  match readValue s with
  | .error e => .error e
  | .ok (v, rest) =>
    have hr := rest.2
    have hb := length_skipBlanks_le rest.1
    match h : skipBlanks rest.1 with
    | ']' :: after =>
      .ok ([v], ⟨after, by
        simp only [h, List.length_cons] at hb
        omega⟩)
    | ',' :: more =>
      have hm := length_skipBlanks_le more
      match readItems (skipBlanks more) with
      | .error e => .error e
      | .ok (vs, after) =>
        .ok (v :: vs, ⟨after.1, by
          have := after.2
          simp only [h, List.length_cons] at hb
          omega⟩)
    | other => .error (.flawed .commaExpected other)
termination_by 2 * s.length + 1
decreasing_by
  · omega
  · simp only [h, List.length_cons] at hb
    omega

/-- Reads the members of an object, of which there is at least one, and the closing brace. -/
def readMembers (s : List Char) : Except Halt (List (String × Value) × Rest s) :=
  match s with
  | '"' :: quoted =>
    match hk : readText ('"' :: quoted) [] quoted with
    | .error e => .error e
    | .ok (key, behindKey) =>
      have hkey := length_lt_of_readText hk
      have hb := length_skipBlanks_le behindKey
      match h : skipBlanks behindKey with
      | ':' :: behindColon =>
        have hc := length_skipBlanks_le behindColon
        match readValue (skipBlanks behindColon) with
        | .error e => .error e
        | .ok (v, rest) =>
          have hr := rest.2
          have hs := length_skipBlanks_le rest.1
          match h' : skipBlanks rest.1 with
          | '\x7d' :: after =>
            .ok ([(String.ofList key, v)], ⟨after, by
              simp only [h, h', List.length_cons] at hb hs ⊢
              omega⟩)
          | ',' :: more =>
            have hm := length_skipBlanks_le more
            match readMembers (skipBlanks more) with
            | .error e => .error e
            | .ok (members, after) =>
              .ok ((String.ofList key, v) :: members, ⟨after.1, by
                have := after.2
                simp only [h, h', List.length_cons] at hb hs ⊢
                omega⟩)
          | other => .error (.flawed .commaExpected other)
      | other => .error (.flawed .colonExpected other)
  | other => .error (.flawed .keyExpected other)
termination_by 2 * s.length + 1
decreasing_by
  · simp only [h, List.length_cons] at hb ⊢
    omega
  · simp only [h, h', List.length_cons] at hb hs ⊢
    omega

end

/-- Reads a text that holds one value, with blanks around it. -/
def read (text : List Char) : Except Halt Value :=
  match readValue (skipBlanks text) with
  | .error e => .error e
  | .ok (v, rest) =>
    match skipBlanks rest.1 with
    | [] => .ok v
    | extra => .error (.flawed .extraData extra)

end TreePath.Json
