import TreePath.Proofs.Reading.Diagnosis

namespace TreePath.Faults

open TreePath.Acceptance
open TreePath.Concatenation
open TreePath.Diagnosis
open TreePath.Grammar
open TreePath.Leaf
open TreePath.Reading
open TreePath.Result
open TreePath.Seam
open TreePath.Session (outcome)

/-- A subscript stands at the front and begins with the number, which ends before
the first character that is no digit. -/
def OpensNumber (s : List Char) (n : Numeral) : Prop :=
  n.digits ≠ [] ∧ (∀ c ∈ n.digits, IsDigit c) ∧
    ∃ rest, Clear IsDigit rest ∧ s = '[' :: (n.toList ++ rest)

/-- The number of that subscript has more digits than can be read. -/
def Overlong (s : List Char) (e : TooManyDigits) : Prop :=
  ∃ n, OpensNumber s n ∧ n.digits.length = e.count ∧ digitLimit < e.count

/-- Such a subscript is the first thing in the text that cannot be read. -/
def MeetsOverlong (text : List Char) (e : TooManyDigits) : Prop :=
  ∃ front steps rest, text = front ++ rest ∧ readAll front = .ok steps ∧
    Overlong rest e

/-- What the halt of a step says about the text that it was to be read from. -/
def Explains (s : List Char) : Halt → Prop
  | .flawed flaw rest => flaw ≠ .malformed ∧ rest <:+ s
  | .overlong e => Overlong s e

theorem opensNumber_iff {s : List Char} {n : Numeral} :
    OpensNumber s n ↔ ∃ body rest, s = '[' :: body ∧ BeginsNumber body n rest := by
  constructor
  · rintro ⟨hne, hdigits, rest, hrest, rfl⟩
    exact ⟨_, rest, rfl, hne, hdigits, hrest, rfl⟩
  · rintro ⟨_, rest, rfl, hne, hdigits, hrest, rfl⟩
    exact ⟨hne, hdigits, rest, hrest, rfl⟩

theorem overlong_iff {s : List Char} {e : TooManyDigits} :
    Overlong s e ↔ ∃ n, OpensNumber s n ∧ n.value = .error e := by
  simp only [Overlong, value_eq_error_iff]

theorem explains_of_readStep_error {s : List Char} {h : Halt}
    (hread : readStep s = .error h) : Explains s h := by
  rcases flawed_of_readStep_error hread with
    ⟨body, n, rest, e, hs, hn, hvalue, rfl⟩ | ⟨flaw, offset, hflaw, rfl⟩
  · exact overlong_iff.mpr ⟨n, opensNumber_iff.mpr ⟨body, rest, hs, hn⟩, hvalue⟩
  · refine ⟨?_, List.drop_suffix offset s⟩
    rintro rfl
    cases hflaw

section Number

variable {s : List Char} {n : Numeral}

theorem readStep_of_overlong {e : TooManyDigits} (h : Overlong s e) :
    readStep s = .error (.overlong e) := by
  obtain ⟨n, hopens, hvalue⟩ := overlong_iff.mp h
  obtain ⟨body, rest, rfl, hn⟩ := opensNumber_iff.mp hopens
  rw [readStep_open_eq_error_iff, readSubscript_of_number hn, hvalue]

theorem readStep_of_outside (h : OpensNumber s n) (hshort : n.digits.length ≤ digitLimit)
    (houtside : n.toInt < leastWord ∨ greatestWord < n.toInt) :
    readStep s = .error (.flawed .badSubscript s.tail) := by
  obtain ⟨body, rest, rfl, hn⟩ := opensNumber_iff.mp h
  have hvalue : n.value = .ok n.toInt := value_eq_ok_iff.mpr ⟨hshort, rfl⟩
  rw [readStep_open_eq_error_iff, readSubscript_of_number hn, hvalue]
  dsimp only
  rw [Index.ofInt?_eq_none_iff.mpr houtside]
  rfl

theorem readAll_append_number {front : List Char} {steps : List Step} {h : Halt}
    (hfront : readAll front = .ok steps) (hs : OpensNumber s n)
    (hstep : readStep s = .error h) : readAll (front ++ s) = .error h := by
  obtain ⟨-, -, rest, -, rfl⟩ := hs
  have hapart : Apart front ('[' :: (n.toList ++ rest)) :=
    Or.inr ⟨clear_cons_iff.mpr (by decide),
      not_merges_of_clear (clear_cons_iff.mpr (by decide))⟩
  exact readAll_eq_error_iff.mpr ⟨steps, pull_eq_halted_iff.mpr
    ⟨front, _, rfl, hfront, hapart, nofun, hstep⟩⟩

end Number

theorem exists_explained_of_readAll_error {s : List Char} {h : Halt}
    (hread : readAll s = .error h) :
    ∃ front steps rest, s = front ++ rest ∧ readAll front = .ok steps ∧
      Explains rest h := by
  obtain ⟨steps, hpull⟩ := readAll_eq_error_iff.mp hread
  obtain ⟨front, rest, hs, hfront, -, -, hstep⟩ := pull_eq_halted_iff.mp hpull
  exact ⟨front, steps, rest, hs, hfront, explains_of_readStep_error hstep⟩

theorem readAll_eq_overlong_iff {s : List Char} {e : TooManyDigits} :
    readAll s = .error (.overlong e) ↔ MeetsOverlong s e := by
  refine ⟨exists_explained_of_readAll_error, ?_⟩
  rintro ⟨front, steps, rest, rfl, hfront, hrest⟩
  have hstep := readStep_of_overlong hrest
  obtain ⟨n, hopens, -⟩ := hrest
  exact readAll_append_number hfront hopens hstep

theorem parseSteps_eq_overlong_iff {text : String} {e : TooManyDigits} :
    parseSteps text = .error (.overlong e) ↔ MeetsOverlong text.toList e := by
  rw [← readAll_eq_overlong_iff, parseSteps, mapError_eq_error_iff]
  constructor
  · rintro ⟨h, hread, herror⟩
    cases h with
    | flawed flaw rest => cases herror
    | overlong e' =>
        cases herror
        exact hread
  · intro hread
    exact ⟨_, hread, rfl⟩

/-- A fault names the text, one of the four flaws and a place in the text. -/
def Located (text : String) (f : PathFault) : Prop :=
  f.text = text ∧ f.flaw ≠ .malformed ∧ 0 ≤ f.position ∧ f.position ≤ text.length

theorem located_of_parseSteps {text : String} {f : PathFault}
    (h : parseSteps text = .error (.flawed f)) : Located text f := by
  obtain ⟨halt, hread, herror⟩ := mapError_eq_error_iff.mp h
  obtain ⟨front, steps, rest, htext, -, hexplains⟩ :=
    exists_explained_of_readAll_error hread
  cases halt with
  | overlong e => cases herror
  | flawed flaw tail =>
      cases herror
      have htail : tail.length ≤ text.toList.length :=
        (hexplains.2.trans ⟨front, htext.symm⟩).length_le
      refine ⟨rfl, hexplains.1, ?_, ?_⟩
      · show (0 : Int) ≤ text.toList.length - tail.length
        omega
      · show (text.toList.length - tail.length : Int) ≤ text.length
        rw [String.length_toList]
        omega

theorem outcome_constant {s : Session} (hs : s.Ready) (text : String) :
    outcome (Session.constant (.value (.str text))) s =
      match Session.readPath text with
      | .error (.path f) => .error (.constant f)
      | r => r := by
  have hparse : outcome (Session.parseArgument (.value (.str text))) s =
      Session.readPath text := Session.outcome_parse hs text
  rw [Session.constant, Session.outcome_tryCatch, hparse]
  cases Session.readPath text with
  | ok p => rfl
  | error e => cases e <;> rfl

theorem parseSteps_of_outside {text : String} {front rest : List Char}
    {steps : List Step} {n : Numeral} (htext : text.toList = front ++ rest)
    (hfront : readAll front = .ok steps) (hopens : OpensNumber rest n)
    (hshort : n.digits.length ≤ digitLimit)
    (houtside : n.toInt < leastWord ∨ greatestWord < n.toInt) :
    parseSteps text = .error (.flawed ⟨text, front.length + 1, .badSubscript⟩) := by
  have hread := readAll_append_number hfront hopens
    (readStep_of_outside hopens hshort houtside)
  refine mapError_eq_error_iff.mpr ⟨_, htext ▸ hread, ?_⟩
  obtain ⟨-, -, after, -, rfl⟩ := hopens
  rw [Halt.toError, htext]
  congr 2
  simp only [List.length_append, List.length_cons, List.tail_cons]
  omega

/-- Reading a text, parsing it and parsing it as a constant end together: in steps, in a
fault that is located in the text, or at a number of more digits than can be read, exactly
if such a number is the first thing that cannot be read. -/
theorem malformed_texts_end_in_faults (text : String) (s : Session) (hs : s.Ready) :
    ((∃ p : Path, parseSteps text = .ok p.steps ∧
        outcome (Session.parse text) s = .ok p ∧
        outcome (Session.constant (.value (.str text))) s = .ok p) ∨
      (∃ f, Located text f ∧ parseSteps text = .error (.flawed f) ∧
        outcome (Session.parse text) s = .error (.path f) ∧
        outcome (Session.constant (.value (.str text))) s = .error (.constant f)) ∨
      ∃ e, MeetsOverlong text.toList e ∧ parseSteps text = .error (.overlong e) ∧
        outcome (Session.parse text) s = .error (.overlong e) ∧
        outcome (Session.constant (.value (.str text))) s = .error (.overlong e)) ∧
    (∀ e, MeetsOverlong text.toList e → parseSteps text = .error (.overlong e)) ∧
    ∀ (front rest : List Char) (steps : List Step) (n : Numeral),
      text.toList = front ++ rest → readAll front = .ok steps → OpensNumber rest n →
      n.digits.length ≤ digitLimit → (n.toInt < leastWord ∨ greatestWord < n.toInt) →
      parseSteps text = .error (.flawed ⟨text, front.length + 1, .badSubscript⟩) := by
  refine ⟨?_, fun e he => parseSteps_eq_overlong_iff.mpr he,
    fun front rest steps n htext hfront hopens hshort houtside =>
      parseSteps_of_outside htext hfront hopens hshort houtside⟩
  rw [Session.outcome_parse hs, outcome_constant hs]
  cases hparse : parseSteps text with
  | ok steps =>
      refine Or.inl ⟨⟨steps⟩, rfl, ?_⟩
      rw [Session.readPath, hparse]
      exact ⟨rfl, rfl⟩
  | error e =>
      cases e with
      | flawed f =>
          refine Or.inr (Or.inl ⟨f, located_of_parseSteps hparse, rfl, ?_⟩)
          rw [Session.readPath, hparse]
          exact ⟨rfl, rfl⟩
      | overlong e =>
          refine Or.inr (Or.inr ⟨e, parseSteps_eq_overlong_iff.mp hparse, rfl, ?_⟩)
          rw [Session.readPath, hparse]
          exact ⟨rfl, rfl⟩

theorem malformed_texts_end_in_faults_at_large_index :
    let text := "a.[-09223372036854775809]"
    let n : Numeral := ⟨true, "09223372036854775809".toList⟩
    Session.Ready {} ∧ readAll "a.".toList = .ok [.key "a"] ∧
      OpensNumber ('[' :: (n.toList ++ [']'])) n ∧ n.toInt < leastWord ∧
      parseSteps text = .error (.flawed ⟨text, 3, .badSubscript⟩) := by
  intro text n
  have htext : text.toList = "a.".toList ++ '[' :: (n.toList ++ [']']) := by
    decide +kernel
  have hfront : readAll "a.".toList = .ok [.key "a"] := by decide +kernel
  have hdigits : ∀ c ∈ n.digits, IsDigit c := by
    have hall : n.digits.all (fun c => decide (IsDigit c)) = true := by decide
    intro c hc
    exact of_decide_eq_true (List.all_eq_true.mp hall c hc)
  have hopens : OpensNumber ('[' :: (n.toList ++ [']'])) n :=
    ⟨by decide, hdigits, [']'], clear_cons_iff.mpr (by decide), rfl⟩
  have hsmall : n.toInt < leastWord := by decide
  exact ⟨Session.ready_new, hfront, hopens, hsmall,
    (malformed_texts_end_in_faults text {} Session.ready_new).2.2 _ _ _ n htext hfront
      hopens (by decide) (Or.inl hsmall)⟩

/-- No fault is given for a number of 4301 digits, though it is out of range. -/
theorem overlong_index_is_no_fault :
    let text := "[" ++ String.ofList (List.replicate 4301 '1') ++ "]"
    parseSteps text = .error (.overlong ⟨4301⟩) ∧
      (¬ ∃ steps, parseSteps text = .ok steps) ∧
      (¬ ∃ f, parseSteps text = .error (.flawed f)) ∧
      outcome (Session.parse text) {} = .error (.overlong ⟨4301⟩) ∧
      outcome (Session.constant (.value (.str text))) {} =
        .error (.overlong ⟨4301⟩) := by
  intro text
  let n : Numeral := ⟨false, List.replicate 4301 '1'⟩
  have hdigits : ∀ c ∈ n.digits, IsDigit c := by
    intro c hc
    rw [List.eq_of_mem_replicate hc]
    decide
  have htext : text.toList = '[' :: (n.toList ++ [']']) := by
    simp only [text, String.toList_append, String.toList_ofList]
    rfl
  have hlength : n.digits.length = 4301 := List.length_replicate
  have hopens : OpensNumber text.toList n :=
    ⟨List.ne_nil_of_length_pos (by omega), hdigits, [']'],
      clear_cons_iff.mpr (by decide), htext⟩
  have hparse : parseSteps text = .error (.overlong ⟨4301⟩) :=
    parseSteps_eq_overlong_iff.mpr ⟨[], [], text.toList, (List.nil_append _).symm,
      readAll_nil, n, hopens, hlength, by decide⟩
  rw [Session.outcome_parse Session.ready_new, outcome_constant Session.ready_new,
    Session.readPath, hparse]
  refine ⟨rfl, ?_, ?_, rfl, rfl⟩
  · rintro ⟨steps, hsteps⟩
    cases hsteps
  · rintro ⟨f, hf⟩
    cases hf

end TreePath.Faults
