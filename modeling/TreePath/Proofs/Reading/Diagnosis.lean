import TreePath.Proofs.Reading.Concatenation

namespace TreePath.Diagnosis

open TreePath.Acceptance
open TreePath.Concatenation
open TreePath.Grammar
open TreePath.Leaf
open TreePath.Reading
open TreePath.Result
open TreePath.Seam

/-- The text begins with the number, all of its digits taken. -/
def BeginsNumber (body : List Char) (n : Numeral) (rest : List Char) : Prop :=
  n.digits ≠ [] ∧ (∀ c ∈ n.digits, IsDigit c) ∧ Clear IsDigit rest ∧
    body = n.toList ++ rest

/-- The text begins with nothing that a subscript could hold. -/
structure Unrecognised (body : List Char) : Prop where
  number : ∀ n rest, ¬ BeginsNumber body n rest
  here : ∀ rest, body ≠ 's' :: 'e' :: 'l' :: 'f' :: rest
  quoted : ∀ rest, body ≠ Text.singleQuote :: rest

/-- A text from which no step can be read, with the flaw and its offset. -/
inductive Flawed : List Char → PathFlaw → Nat → Prop where
  | noStep {s : List Char} (hopen : Clear (· = '[') s) (hhead : Clear IsHead s) :
      Flawed s .stepExpected 0
  | outside {body rest : List Char} {n : Numeral} (hn : BeginsNumber body n rest)
      (hvalue : n.toInt < leastWord ∨ greatestWord < n.toInt) :
      Flawed ('[' :: body) .badSubscript 1
  | openNumber {body rest : List Char} {n : Numeral} (hn : BeginsNumber body n rest)
      (hleast : leastWord ≤ n.toInt) (hgreatest : n.toInt ≤ greatestWord)
      (hrest : Clear (· = ']') rest) :
      Flawed ('[' :: body) .openSubscript (n.toList.length + 1)
  | openHere {rest : List Char} (hrest : Clear (· = ']') rest) :
      Flawed ('[' :: 's' :: 'e' :: 'l' :: 'f' :: rest) .openSubscript 5
  | openText {quoted : List Char}
      (hopen : ∀ raw name rest, Quotes raw name →
        quoted ≠ raw ++ Text.singleQuote :: rest) :
      Flawed ('[' :: Text.singleQuote :: quoted) .openText 1
  | openQuoted {raw name rest : List Char} (hraw : Quotes raw name)
      (hrest : Clear (· = ']') rest) :
      Flawed ('[' :: Text.singleQuote :: (raw ++ Text.singleQuote :: rest))
        .openSubscript (raw.length + 3)
  | openOther {body : List Char} (hbody : Unrecognised body) (hclose : ']' ∉ body) :
      Flawed ('[' :: body) .openSubscript 0
  | other {body : List Char} (hbody : Unrecognised body) (hclose : ']' ∈ body) :
      Flawed ('[' :: body) .badSubscript 1

section Subscript

variable {body rest : List Char} {n : Numeral} {h : Halt}

theorem split?_eq_some_iff :
    Numeral.split? body = some (n, rest) ↔ BeginsNumber body n rest := by
  constructor
  · intro hsplit
    exact ⟨Numeral.digits_ne_nil_of_split? hsplit, isDigit_of_split? hsplit,
      clear_isDigit_of_split? hsplit, (Numeral.toList_append_of_split? hsplit).symm⟩
  · rintro ⟨hne, hdigits, hrest, rfl⟩
    exact split?_append hne hdigits hrest

theorem readSubscript_of_number (hn : BeginsNumber body n rest) :
    readSubscript body =
      match n.value with
      | .error e => .error (.overlong e)
      | .ok v =>
        match Index.ofInt? v with
        | some i => close (.index i) rest
        | none => .error (.flawed .badSubscript body) := by
  have hsplit := split?_eq_some_iff.mpr hn
  unfold readSubscript
  split
  · rename_i hfound
    cases hsplit.symm.trans hfound
    rfl
  · rename_i hnone
    cases hsplit.symm.trans hnone

theorem readSubscript_self (rest : List Char) :
    readSubscript ('s' :: 'e' :: 'l' :: 'f' :: rest) = close .here rest :=
  rfl

theorem readSubscript_of_unrecognised (hbody : Unrecognised body) :
    readSubscript body =
      if ']' ∈ body then .error (.flawed .badSubscript body)
      else .error (.flawed .openSubscript ('[' :: body)) := by
  unfold readSubscript
  split
  · rename_i n rest hsplit
    exact absurd (split?_eq_some_iff.mp hsplit) (hbody.number n rest)
  · split
    · exact absurd rfl (hbody.here _)
    · exact absurd rfl (hbody.quoted _)
    · simp only [List.contains_iff_mem]

theorem unquote?_eq_none_iff {s : List Char} :
    unquote? s = none ↔
      ∀ raw name rest, Quotes raw name → s ≠ raw ++ Text.singleQuote :: rest := by
  constructor
  · rintro hnone raw name rest hraw rfl
    rw [unquote?_append hraw rest] at hnone
    cases hnone
  · intro hopen
    cases hkey : unquote? s with
    | none => rfl
    | some r =>
        obtain ⟨raw, hs, hraw⟩ := quotes_of_unquote? hkey
        exact absurd hs (hopen raw _ _ hraw)

theorem body_cases (body : List Char) :
    (∃ n rest, BeginsNumber body n rest) ∨
      (∃ rest, body = 's' :: 'e' :: 'l' :: 'f' :: rest) ∨
      (∃ quoted, body = Text.singleQuote :: quoted) ∨ Unrecognised body := by
  by_cases hnumber : ∃ n rest, BeginsNumber body n rest
  · exact Or.inl hnumber
  by_cases hhere : ∃ rest, body = 's' :: 'e' :: 'l' :: 'f' :: rest
  · exact Or.inr (Or.inl hhere)
  by_cases hquoted : ∃ quoted, body = Text.singleQuote :: quoted
  · exact Or.inr (Or.inr (Or.inl hquoted))
  · refine Or.inr (Or.inr (Or.inr ⟨?_, ?_, ?_⟩))
    · exact fun n rest hn => hnumber ⟨n, rest, hn⟩
    · exact fun rest hbody => hhere ⟨rest, hbody⟩
    · exact fun rest hbody => hquoted ⟨rest, hbody⟩

end Subscript

section Step

variable {s body rest : List Char} {n : Numeral} {flaw : PathFlaw} {offset : Nat}
  {h : Halt}

theorem readStep_open_eq_error_iff :
    readStep ('[' :: body) = .error h ↔ readSubscript body = .error h := by
  rw [readStep, map_eq_error_iff, readBareStep, if_pos rfl]

theorem readStep_of_noStep (hopen : Clear (· = '[') s) (hhead : Clear IsHead s) :
    readStep s = .error (.flawed .stepExpected s) := by
  rw [readStep, map_eq_error_iff]
  cases s with
  | nil => rfl
  | cons c s =>
      have hc : ¬ isIdentifierHead c = true := by
        rw [isIdentifierHead_iff]
        exact clear_cons_iff.mp hhead
      rw [readBareStep, if_neg (clear_cons_iff.mp hopen), if_neg hc]

theorem open_or_noStep_of_readStep_error (hread : readStep s = .error h) :
    (∃ body, s = '[' :: body) ∨ Clear (· = '[') s ∧ Clear IsHead s := by
  cases s with
  | nil => exact Or.inr ⟨clear_nil _, clear_nil _⟩
  | cons c s =>
      by_cases hopen : c = '['
      · exact Or.inl ⟨s, by rw [hopen]⟩
      · refine Or.inr ⟨clear_cons_iff.mpr hopen, clear_cons_iff.mpr ?_⟩
        intro hhead
        rw [readStep, map_eq_error_iff, readBareStep, if_neg hopen,
          if_pos (isIdentifierHead_iff.mpr hhead)] at hread
        cases hread

theorem Flawed.offset_le (hs : Flawed s flaw offset) : offset ≤ s.length := by
  cases hs with
  | noStep => exact Nat.zero_le _
  | openNumber hn =>
      obtain ⟨-, -, -, rfl⟩ := hn
      simp only [List.length_cons, List.length_append]
      omega
  | openQuoted =>
      simp only [List.length_cons, List.length_append]
      omega
  | _ => simp only [List.length_cons]; omega

theorem drop_quoted (raw rest : List Char) :
    ('[' :: Text.singleQuote :: (raw ++ Text.singleQuote :: rest)).drop
      (raw.length + 3) = rest := by
  rw [List.drop_succ_cons, List.drop_succ_cons, List.drop_append,
    List.drop_of_length_le (Nat.le_add_right _ _), Nat.add_sub_cancel_left]
  rfl

theorem flawed_of_readSubscript_number (hn : BeginsNumber body n rest)
    (hread : readSubscript body = .error h) :
    (∃ e, n.value = .error e ∧ h = .overlong e) ∨
      ∃ flaw offset, Flawed ('[' :: body) flaw offset ∧
        h = .flawed flaw (('[' :: body).drop offset) := by
  rw [readSubscript_of_number hn] at hread
  -- The digits are counted before the value is looked at, and that before the bracket.
  cases hvalue : n.value with
  | error e =>
      rw [hvalue] at hread
      cases hread
      exact Or.inl ⟨e, rfl, rfl⟩
  | ok v =>
      refine Or.inr ?_
      obtain ⟨-, rfl⟩ := value_eq_ok_iff.mp hvalue
      rw [hvalue] at hread
      dsimp only at hread
      cases hi : Index.ofInt? n.toInt with
      | none =>
          rw [hi] at hread
          cases hread
          exact ⟨_, _, Flawed.outside hn (Index.ofInt?_eq_none_iff.mp hi), rfl⟩
      | some i =>
          rw [hi] at hread
          obtain ⟨hrest, rfl⟩ := close_eq_error_iff.mp hread
          have hval : i.val = n.toInt := Index.ofInt?_eq_some_iff.mp hi
          refine ⟨_, _, Flawed.openNumber hn (hval ▸ i.least_le)
            (hval ▸ i.le_greatest) hrest, ?_⟩
          obtain ⟨-, -, -, rfl⟩ := hn
          rw [List.drop_succ_cons, List.drop_left]

theorem flawed_of_readStep_error (hread : readStep s = .error h) :
    (∃ body n rest e, s = '[' :: body ∧ BeginsNumber body n rest ∧
        n.value = .error e ∧ h = .overlong e) ∨
      ∃ flaw offset, Flawed s flaw offset ∧ h = .flawed flaw (s.drop offset) := by
  rcases open_or_noStep_of_readStep_error hread with ⟨body, rfl⟩ | ⟨hopen, hhead⟩
  · rw [readStep_open_eq_error_iff] at hread
    rcases body_cases body with
      ⟨n, rest, hn⟩ | ⟨rest, rfl⟩ | ⟨quoted, rfl⟩ | hbody
    · refine (flawed_of_readSubscript_number hn hread).imp_left ?_
      rintro ⟨e, hvalue, rfl⟩
      exact ⟨body, n, rest, e, rfl, hn, hvalue, rfl⟩
    · rw [readSubscript_self] at hread
      obtain ⟨hrest, rfl⟩ := close_eq_error_iff.mp hread
      exact Or.inr ⟨_, _, Flawed.openHere hrest, rfl⟩
    · rw [readSubscript_singleQuote] at hread
      cases hkey : unquote? quoted with
      | none =>
          rw [hkey] at hread
          cases hread
          exact Or.inr ⟨_, _, Flawed.openText (unquote?_eq_none_iff.mp hkey), rfl⟩
      | some r =>
          obtain ⟨raw, rfl, hraw⟩ := quotes_of_unquote? hkey
          rw [hkey] at hread
          obtain ⟨hrest, rfl⟩ := close_eq_error_iff.mp hread
          refine Or.inr ⟨_, _, Flawed.openQuoted hraw hrest, ?_⟩
          rw [drop_quoted]
    · rw [readSubscript_of_unrecognised hbody] at hread
      split at hread
      · rename_i hclose
        cases hread
        exact Or.inr ⟨_, _, Flawed.other hbody hclose, rfl⟩
      · rename_i hclose
        cases hread
        exact Or.inr ⟨_, _, Flawed.openOther hbody hclose, rfl⟩
  · rw [readStep_of_noStep hopen hhead] at hread
    cases hread
    exact Or.inr ⟨_, _, Flawed.noStep hopen hhead, rfl⟩

theorem value_of_digitRunsWithin (hs : DigitRunsWithin digitLimit s)
    (hn : BeginsNumber body n rest) (hbody : body <:+: s) : n.value = .ok n.toInt := by
  obtain ⟨-, hdigits, -, rfl⟩ := hn
  have hnumber : n.toList <:+: s :=
    List.IsInfix.trans (List.prefix_append _ _).isInfix hbody
  exact value_eq_ok_iff.mpr
    ⟨short_of_digitRunsWithin hs hnumber n hdigits rfl, rfl⟩

theorem readStep_of_flawed (hs : Flawed s flaw offset)
    (hruns : DigitRunsWithin digitLimit s) :
    readStep s = .error (.flawed flaw (s.drop offset)) := by
  cases hs with
  | noStep hopen hhead => exact readStep_of_noStep hopen hhead
  | outside hn hvalue =>
      rw [readStep_open_eq_error_iff, readSubscript_of_number hn,
        value_of_digitRunsWithin hruns hn (List.suffix_cons _ _).isInfix]
      dsimp only
      rw [Index.ofInt?_eq_none_iff.mpr hvalue]
      rfl
  | @openNumber body rest n hn hleast hgreatest hrest =>
      have hi : Index.ofInt? n.toInt = some ⟨n.toInt, hleast, hgreatest⟩ :=
        Index.ofInt?_eq_some_iff.mpr rfl
      rw [readStep_open_eq_error_iff, readSubscript_of_number hn,
        value_of_digitRunsWithin hruns hn (List.suffix_cons _ _).isInfix]
      dsimp only
      rw [hi]
      refine close_eq_error_iff.mpr ⟨hrest, ?_⟩
      obtain ⟨-, -, -, rfl⟩ := hn
      rw [List.drop_succ_cons, List.drop_left]
  | openHere hrest =>
      rw [readStep_open_eq_error_iff, readSubscript_self]
      exact close_eq_error_iff.mpr ⟨hrest, rfl⟩
  | openText hopen =>
      rw [readStep_open_eq_error_iff, readSubscript_singleQuote,
        unquote?_eq_none_iff.mpr hopen]
      rfl
  | @openQuoted raw name rest hraw hrest =>
      rw [readStep_open_eq_error_iff, readSubscript_singleQuote,
        unquote?_append hraw rest]
      refine close_eq_error_iff.mpr ⟨hrest, ?_⟩
      rw [drop_quoted]
  | openOther hbody hclose =>
      rw [readStep_open_eq_error_iff, readSubscript_of_unrecognised hbody, if_neg hclose]
      rfl
  | other hbody hclose =>
      rw [readStep_open_eq_error_iff, readSubscript_of_unrecognised hbody, if_pos hclose]
      rfl

theorem Flawed.unique {flaw' : PathFlaw} {offset' : Nat} (hs : Flawed s flaw offset)
    (hs' : Flawed s flaw' offset') (hruns : DigitRunsWithin digitLimit s) :
    flaw' = flaw ∧ offset' = offset := by
  have hboth := (readStep_of_flawed hs' hruns).symm.trans (readStep_of_flawed hs hruns)
  simp only [Except.error.injEq, Halt.flawed.injEq] at hboth
  have hlength := congrArg List.length hboth.2
  have hoffset := hs.offset_le
  have hoffset' := hs'.offset_le
  simp only [List.length_drop] at hlength
  exact ⟨hboth.1, by omega⟩

end Step

/-- A text that is rejected falls into a front, which gives the steps that were read, and a
rest from which no step can be read. The first flaw of the rest is the fault of the whole
text, at its place behind the front. -/
theorem rejected_texts_are_diagnosed (text : String)
    (hreject : ∀ steps, parseSteps text ≠ .ok steps)
    (hruns : DigitRunsWithin digitLimit text.toList) :
    ∃ front flaw offset,
      text.toList = front ++ unread text.toList ∧ unread text.toList ≠ [] ∧
      parseSteps (String.ofList front) = .ok (pull none text.toList).1 ∧
      Flawed (unread text.toList) flaw offset ∧
      (∀ flaw' offset', Flawed (unread text.toList) flaw' offset' →
        flaw' = flaw ∧ offset' = offset) ∧
      parseSteps text = .error (.flawed ⟨text, (front.length + offset : Nat), flaw⟩) ∧
      front.length + offset ≤ text.length := by
  cases hread : readAll text.toList with
  | ok steps => exact absurd (parseSteps_eq_ok_iff.mpr hread) (hreject steps)
  | error h =>
      obtain ⟨steps, hpull⟩ := readAll_eq_error_iff.mp hread
      obtain ⟨⟨front, htext, hfront, -⟩, hne, hstep⟩ := unread_of_halted hpull
      have hrest : unread text.toList <:+: text.toList := ⟨front, [], by simp [← htext]⟩
      have hruns' : DigitRunsWithin digitLimit (unread text.toList) := hruns.of_infix hrest
      rcases flawed_of_readStep_error hstep with
        ⟨body, n, rest, e, hbody, hn, hvalue, -⟩ | ⟨flaw, offset, hflaw, rfl⟩
      · rw [hbody] at hruns'
        rw [value_of_digitRunsWithin hruns' hn (List.suffix_cons _ _).isInfix] at hvalue
        cases hvalue
      · have hlength : text.length = front.length + (unread text.toList).length := by
          rw [← String.length_toList, ← List.length_append, ← htext]
        have hoffset := hflaw.offset_le
        refine ⟨front, flaw, offset, htext, hne, ?_, hflaw, ?_, ?_, by omega⟩
        · rw [parseSteps_eq_ok_iff, String.toList_ofList, hpull]
          exact hfront
        · exact fun flaw' offset' hflaw' => hflaw.unique hflaw' hruns'
        · refine mapError_eq_error_iff.mpr ⟨_, hread, ?_⟩
          rw [Halt.toError, String.length_toList, hlength, List.length_drop]
          congr 2
          omega

theorem rejected_texts_are_diagnosed_behind_quoted_key :
    let text := "a.b['x`'y'z]"
    (∀ steps, parseSteps text ≠ .ok steps) ∧ DigitRunsWithin digitLimit text.toList ∧
      unread text.toList = "['x`'y'z]".toList ∧
      parseSteps "a.b" = .ok [.key "a", .key "b"] ∧
      Flawed "['x`'y'z]".toList .openSubscript 7 ∧
      parseSteps text = .error (.flawed ⟨text, 10, .openSubscript⟩) := by
  intro text
  have hreject : ∀ steps, parseSteps text ≠ .ok steps := by
    have herror : parseSteps text = .error (.flawed ⟨text, 10, .openSubscript⟩) := by
      decide +kernel
    intro steps hsteps
    cases herror.symm.trans hsteps
  have hruns : DigitRunsWithin digitLimit text.toList :=
    DigitRunsWithin.of_length_le (by decide)
  have hrest : unread text.toList = "['x`'y'z]".toList := by decide +kernel
  have hraw : Quotes ['x', backtick, Text.singleQuote, 'y'] ['x', Text.singleQuote, 'y'] := by
    refine .plain ?_ (.pair (Or.inr rfl) (.plain ?_ .nil)) <;>
      simp only [IsEscapable] <;> decide
  have hflaw : Flawed "['x`'y'z]".toList .openSubscript 7 := by
    have hopen : Clear (· = ']') ['z', ']'] := clear_cons_iff.mpr (by decide)
    have htail : "['x`'y'z]".toList = '[' :: Text.singleQuote ::
        (['x', backtick, Text.singleQuote, 'y'] ++ Text.singleQuote :: ['z', ']']) := by
      decide
    rw [htail]
    exact Flawed.openQuoted hraw hopen
  obtain ⟨front, flaw, offset, htext, -, hfront, -, hunique, herror, -⟩ :=
    rejected_texts_are_diagnosed text hreject hruns
  rw [hrest] at htext hunique
  obtain ⟨rfl, rfl⟩ := hunique _ _ hflaw
  have hsteps : (pull none text.toList).1 = [.key "a", .key "b"] := by decide +kernel
  have hsplit : text.toList = "a.b".toList ++ "['x`'y'z]".toList := by decide
  obtain rfl : "a.b".toList = front := List.append_cancel_right (hsplit.symm.trans htext)
  rw [hsteps] at hfront
  exact ⟨hreject, hruns, hrest, hfront, hflaw, herror⟩

end TreePath.Diagnosis
