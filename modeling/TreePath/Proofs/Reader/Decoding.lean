import TreePath.Proofs.Json.Overlong
import TreePath.Proofs.Reader.Absence

namespace TreePath.Decoding

open TreePath.Absence
open TreePath.Grammar
open TreePath.Json
open TreePath.Presence
open TreePath.Result
open TreePath.Session (outcome)

/-- A text, or bytes, be they fixed or not. -/
inductive Raw : Value → Prop where
  | text (s : String) : Raw (.str s)
  | bytes (octets : List UInt8) : Raw (.bytes octets)
  | buffer (octets : List UInt8) : Raw (.buffer octets)

/-- The data holds a text in which reading comes to a number of too many digits. -/
def MeetsOverlong (data : Value) (e : TooManyDigits) : Prop :=
  ∃ text t, textOf data = .ok text ∧ Comes .value (skipBlanks text) t ∧ Overlong t e

/-- What may stand at the top of a document. -/
def IsContainer (v : Value) : Prop :=
  (∃ items, v = .list items) ∨ ∃ entries, v = .map entries

section Data

variable {data v : Value} {e : ReadError}

theorem exists_document_of_textOf (hdata : Raw data) (h : textOf data = .error e) :
    ∃ f, e = .document f := by
  cases hdata with
  | text s =>
      rw [textOf] at h
      split at h
      · split at h <;> cases h
        exact ⟨_, rfl⟩
      · cases h
  | bytes octets =>
      obtain ⟨f, -, rfl⟩ := mapError_eq_error_iff.mp h
      exact ⟨_, rfl⟩
  | buffer octets =>
      obtain ⟨f, -, rfl⟩ := mapError_eq_error_iff.mp h
      exact ⟨_, rfl⟩

theorem readAny_eq_overlong_iff (hdata : Raw data) {e : TooManyDigits} :
    readAny data = .error (.overlong e) ↔ MeetsOverlong data e := by
  unfold readAny MeetsOverlong
  cases htext : textOf data with
  | error f =>
      obtain ⟨f, rfl⟩ := exists_document_of_textOf hdata htext
      exact iff_of_false nofun nofun
  | ok text =>
      simp only [Except.ok.injEq, exists_and_left, exists_eq_left', ← read_eq_overlong_iff]
      cases Json.read text with
      | ok v => exact iff_of_false nofun nofun
      | error halt =>
          cases halt with
          | flawed flaw rest => exact iff_of_false nofun nofun
          | overlong e' =>
              simp only [Except.error.injEq, ReadError.overlong.injEq,
                Json.Halt.overlong.injEq]

theorem document_or_overlong_of_readAny (hdata : Raw data) (h : readAny data = .error e) :
    (∃ f, e = .document f) ∨ ∃ n, e = .overlong n := by
  unfold readAny at h
  split at h
  · rename_i htext
    cases h
    exact Or.inl (exists_document_of_textOf hdata htext)
  · split at h <;> cases h
    · exact Or.inl ⟨_, rfl⟩
    · exact Or.inr ⟨_, rfl⟩

theorem isContainer_of_readValue {s : List Char} {rest : Rest s}
    (h : readValue s = .ok (v, rest)) (hv : v.isArray = true ∨ v.isMap = true) :
    IsContainer v := by
  have hread := valueRead s
  rw [h] at hread
  cases hread with
  | text => rcases hv with hv | hv <;> cases hv
  | emptyList => exact Or.inl ⟨_, rfl⟩
  | list => exact Or.inl ⟨_, rfl⟩
  | emptyMap => exact Or.inr ⟨_, rfl⟩
  | map => exact Or.inr ⟨_, rfl⟩
  | scalar _ _ hscalar =>
      obtain ⟨-, hitems, hentries⟩ := scalar_of_readScalar hscalar
      simp only [Value.isArray, Value.isMap, hitems, hentries] at hv
      exact absurd hv (by decide)

theorem isContainer_iff_of_readAny (h : readAny data = .ok v) :
    IsContainer v ↔ v.isArray = true ∨ v.isMap = true := by
  constructor
  · rintro (⟨items, rfl⟩ | ⟨entries, rfl⟩)
    · exact Or.inl rfl
    · exact Or.inr rfl
  · obtain ⟨s, rest, hvalue⟩ := exists_readValue_of_readAny h
    exact isContainer_of_readValue hvalue

theorem readDocument_eq_ok_iff {fragments : Bool} :
    readDocument fragments data = .ok v ↔
      readAny data = .ok v ∧ (fragments = true ∨ IsContainer v) := by
  unfold readDocument
  cases hread : readAny data with
  | error e => exact iff_of_false nofun nofun
  | ok w =>
      have htop := isContainer_iff_of_readAny hread
      dsimp only
      split
      · rename_i hallowed
        rw [Except.ok.injEq]
        refine (and_iff_left_of_imp ?_).symm
        rintro rfl
        rwa [htop, ← or_assoc, ← Bool.or_eq_true, ← Bool.or_eq_true]
      · rename_i hrefused
        refine iff_of_false nofun ?_
        rintro ⟨⟨⟩, h⟩
        rw [htop, ← or_assoc, ← Bool.or_eq_true, ← Bool.or_eq_true] at h
        exact hrefused h

theorem readDocument_eq_overlong_iff (fragments : Bool) {e : TooManyDigits} :
    readDocument fragments data = .error (.overlong e) ↔
      readAny data = .error (.overlong e) := by
  unfold readDocument
  cases readAny data with
  | error e => rfl
  | ok w =>
      dsimp only
      split <;> exact iff_of_false nofun nofun

end Data

section Outcome

variable {data : Value} {fragments : Option Bool} {s : Session}

theorem ofDocument_eq_ok_iff {r : Reader} :
    outcome (Reader.ofDocument data fragments) s = .ok r ↔
      readAny data = .ok r.root ∧
        (fragments.getD s.settings.fragments = true ∨ IsContainer r.root) := by
  rw [outcome_ofDocument, ← readDocument_eq_ok_iff]
  cases readDocument (fragments.getD s.settings.fragments) data with
  | error e => exact iff_of_false nofun nofun
  | ok root =>
      dsimp only
      rw [Except.ok.injEq, Except.ok.injEq]
      constructor
      · rintro rfl
        rfl
      · rintro rfl
        rfl

theorem ofDocument_eq_overlong_iff (hdata : Raw data) {e : TooManyDigits} :
    outcome (Reader.ofDocument data fragments) s = .error (.overlong e) ↔
      MeetsOverlong data e := by
  rw [outcome_ofDocument, ← readAny_eq_overlong_iff hdata,
    ← readDocument_eq_overlong_iff (fragments.getD s.settings.fragments)]
  cases readDocument (fragments.getD s.settings.fragments) data with
  | ok root => exact iff_of_false nofun nofun
  | error f => cases f <;> simp [Failure.ofReadError]

theorem document_or_overlong_of_ofDocument (hdata : Raw data) {e : Failure}
    (h : outcome (Reader.ofDocument data fragments) s = .error e) :
    (∃ f, e = .document f) ∨ ∃ n, e = .overlong n := by
  rw [outcome_ofDocument] at h
  split at h <;> cases h
  rename_i e herror
  unfold readDocument at herror
  split at herror
  · rename_i hread
    cases herror
    obtain ⟨f, rfl⟩ | ⟨n, rfl⟩ := document_or_overlong_of_readAny hdata hread
    · exact Or.inl ⟨f, rfl⟩
    · exact Or.inr ⟨n, rfl⟩
  · split at herror <;> cases herror
    exact Or.inl ⟨_, rfl⟩

end Outcome

theorem meetsOverlong_of_str {text : String} {c : Char} {rest t : List Char}
    {e : TooManyDigits} (htext : text.toList = c :: rest) (hmark : c ≠ byteOrderMark)
    (hblank : isBlank c = false) (hcomes : Comes .value (c :: rest) t)
    (ht : Overlong t e) : MeetsOverlong (.str text) e := by
  refine ⟨c :: rest, t, ?_, ?_, ht⟩
  · rw [textOf, htext]
    exact if_neg hmark
  · rwa [skipBlanks, List.dropWhile_cons, hblank]

theorem overlong_ones {count : Nat} (hcount : digitLimit < count) (negative : Bool)
    (c : Char) (hc : ¬IsDigit c ∧ c ≠ '.' ∧ c ≠ 'e' ∧ c ≠ 'E') (more : List Char) :
    Overlong (Numeral.toList ⟨negative, List.replicate count '1'⟩ ++ c :: more)
      ⟨count⟩ := by
  obtain ⟨hdigit, hpoint, hsmall, hlarge⟩ := hc
  have hones : ∀ d ∈ List.replicate count '1', IsDigit d := by
    intro d hd
    rw [List.eq_of_mem_replicate hd]
    decide
  refine ⟨⟨negative, List.replicate count '1'⟩, c :: more,
    ⟨?_, hones, clear_cons_iff.mpr hdigit, rfl⟩, ?_, ?_, ?_, List.length_replicate, hcount⟩
  · exact List.ne_nil_of_length_pos (by simpa using Nat.zero_lt_of_lt hcount)
  · intro hhead
    cases List.eq_of_mem_replicate (List.mem_of_mem_head? hhead)
  · rintro _ ⟨⟩
    exact absurd rfl hpoint
  · rintro _ _ ⟨⟩ (rfl | rfl)
    · exact absurd rfl hsmall
    · exact absurd rfl hlarge

/-- Decoding gives a reader that is not empty or a document error, but where reading comes
to a number of too many digits. Fragments refused, there is a reader where there would be
the same one with fragments allowed and its root is a list or a map. -/
theorem decoding_fails_besides_at_overlong_numbers_alone (data : Value) (hdata : Raw data)
    (fragments : Option Bool) (s : Session) :
    ((∃ r, outcome (Reader.ofDocument data fragments) s = .ok r ∧ r.isEmpty = false) ∨
      (∃ f, outcome (Reader.ofDocument data fragments) s = .error (.document f)) ∨
      ∃ e, MeetsOverlong data e ∧
        outcome (Reader.ofDocument data fragments) s = .error (.overlong e)) ∧
    (∀ e, MeetsOverlong data e →
      outcome (Reader.ofDocument data fragments) s = .error (.overlong e)) ∧
    (∀ text, textOf data = .ok text → DigitRunsWithin digitLimit text →
      ∀ e, ¬MeetsOverlong data e) ∧
    ∀ r, outcome (Reader.ofDocument data fragments) s = .ok r ↔
      outcome (Reader.ofDocument data (some true)) s = .ok r ∧
        (fragments.getD s.settings.fragments = true ∨ IsContainer r.root) := by
  refine ⟨?_, fun e => (ofDocument_eq_overlong_iff hdata).mpr, ?_, fun r => ?_⟩
  · cases hresult : outcome (Reader.ofDocument data fragments) s with
    | ok r => exact Or.inl ⟨r, rfl, isEmpty_eq_false_of_whole (whole_of_ofDocument hresult)⟩
    | error e =>
        obtain ⟨f, rfl⟩ | ⟨n, rfl⟩ := document_or_overlong_of_ofDocument hdata hresult
        · exact Or.inr (Or.inl ⟨f, rfl⟩)
        · exact Or.inr (Or.inr ⟨n, (ofDocument_eq_overlong_iff hdata).mp hresult, rfl⟩)
  · rintro text htext hruns e ⟨text', t, htext', hcomes, ht⟩
    cases htext.symm.trans htext'
    exact not_overlong_of_digitRunsWithin hruns hcomes ht
  · rw [ofDocument_eq_ok_iff, ofDocument_eq_ok_iff, Option.getD_some, eq_self, true_or,
      and_true]

theorem decoding_fails_besides_at_overlong_numbers_alone_within_lists :
    let nested : Value :=
      .str ("[ [-" ++ String.ofList (List.replicate 4301 '1') ++ " ] ]")
    let seven : Value := .buffer [0x00, 0x37]
    Raw nested ∧ MeetsOverlong nested ⟨4301⟩ ∧
      outcome (Reader.ofDocument nested none) {} = .error (.overlong ⟨4301⟩) ∧
      Raw seven ∧ textOf seven = .ok ['7'] ∧ DigitRunsWithin digitLimit ['7'] ∧
      (∀ e, ¬MeetsOverlong seven e) ∧
      outcome (Reader.ofDocument seven (some true)) {} = .ok ⟨.int 7⟩ ∧
      ¬∃ r, outcome (Reader.ofDocument seven none) {} = .ok r := by
  intro nested seven
  let number := Numeral.toList ⟨true, List.replicate 4301 '1'⟩ ++ [' ', ']', ' ', ']']
  have hlong : Overlong number ⟨4301⟩ := overlong_ones (by decide) true ' ' (by decide) _
  have hcharacters : ("[ [-" ++ String.ofList (List.replicate 4301 '1') ++ " ] ]").toList =
      '[' :: ' ' :: '[' :: number := by
    simp only [String.toList_append, String.toList_ofList]
    rfl
  have hmeets : MeetsOverlong nested ⟨4301⟩ :=
    meetsOverlong_of_str hcharacters (by decide) rfl
      (.list (by decide) (.item (.list (by decide) (.item .here)))) hlong
  have htext : textOf seven = .ok ['7'] := rfl
  have hruns : DigitRunsWithin digitLimit ['7'] := .of_length_le (by decide)
  -- the readers recurse along the length of the text, which plain `rfl` does not unfold
  have hfree : outcome (Reader.ofDocument seven (some true)) {} = .ok ⟨.int 7⟩ := by
    with_unfolding_all rfl
  obtain ⟨-, hescapes, -, -⟩ :=
    decoding_fails_besides_at_overlong_numbers_alone nested (.text _) none {}
  obtain ⟨-, -, hnone, hrefused⟩ :=
    decoding_fails_besides_at_overlong_numbers_alone seven (.buffer _) none {}
  refine ⟨.text _, hmeets, hescapes _ hmeets, .buffer _, htext, hruns,
    hnone _ htext hruns, hfree, ?_⟩
  rintro ⟨r, hr⟩
  obtain ⟨hsame, hallowed | ⟨items, hroot⟩ | ⟨entries, hroot⟩⟩ := (hrefused r).mp hr
  · cases hallowed
  · cases hsame.symm.trans hfree
    cases hroot
  · cases hsame.symm.trans hfree
    cases hroot

/-- Neither a reader nor a document error comes of a list of one number of 4301 digits. -/
theorem overlong_number_escapes_decoding :
    let data : Value := .str ("[" ++ String.ofList (List.replicate 4301 '1') ++ "]")
    Raw data ∧ outcome (Reader.ofDocument data none) {} = .error (.overlong ⟨4301⟩) ∧
      (¬∃ r, outcome (Reader.ofDocument data none) {} = .ok r) ∧
      (¬∃ f, outcome (Reader.ofDocument data none) {} = .error (.document f)) ∧
      (Failure.overlong ⟨4301⟩).families = [] := by
  intro data
  have hdata : Raw data := .text _
  let number := Numeral.toList ⟨false, List.replicate 4301 '1'⟩ ++ [']']
  have hlong : Overlong number ⟨4301⟩ := overlong_ones (by decide) false ']' (by decide) _
  have hcharacters : ("[" ++ String.ofList (List.replicate 4301 '1') ++ "]").toList =
      '[' :: number := by
    simp only [String.toList_append, String.toList_ofList]
    rfl
  have hmeets : MeetsOverlong data ⟨4301⟩ :=
    meetsOverlong_of_str hcharacters (by decide) rfl (.list (by decide) (.item .here)) hlong
  have hescapes : outcome (Reader.ofDocument data none) {} = .error (.overlong ⟨4301⟩) :=
    (ofDocument_eq_overlong_iff hdata).mpr hmeets
  refine ⟨hdata, hescapes, ?_, ?_, rfl⟩
  · rintro ⟨r, hr⟩
    cases hescapes.symm.trans hr
  · rintro ⟨f, hf⟩
    cases hescapes.symm.trans hf

end TreePath.Decoding
