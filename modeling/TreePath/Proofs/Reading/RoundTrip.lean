import TreePath.Proofs.Reading.Acceptance
import TreePath.Proofs.Session.Transparency

namespace TreePath.RoundTrip

open TreePath.Acceptance
open TreePath.Grammar
open TreePath.Reading

theorem escapeKey_cons_of_escapable {c : Char} (hc : IsEscapable c) (name : List Char) :
    escapeKey (c :: name) = backtick :: c :: escapeKey name := by
  have hpair : (if c = backtick ∨ c = Text.singleQuote then [backtick, c] else [c]) =
      [backtick, c] := if_pos hc
  rw [escapeKey, List.flatMap_cons, hpair]
  rfl

theorem escapeKey_cons_of_plain {c : Char} (hc : ¬ IsEscapable c) (name : List Char) :
    escapeKey (c :: name) = c :: escapeKey name := by
  have hplain : (if c = backtick ∨ c = Text.singleQuote then [backtick, c] else [c]) =
      [c] := if_neg hc
  rw [escapeKey, List.flatMap_cons, hplain]
  rfl

/-- Each quote and each backtick is escaped on its own, so runs of them cannot
merge into other pairs. -/
theorem quotes_escapeKey (name : List Char) : Quotes (escapeKey name) name := by
  induction name with
  | nil => exact Quotes.nil
  | cons c name ih =>
      by_cases hc : c = backtick ∨ c = Text.singleQuote
      · rw [escapeKey_cons_of_escapable hc]
        exact Quotes.pair hc ih
      · rw [escapeKey_cons_of_plain hc]
        exact Quotes.plain hc ih

def numeralOf (n : Int) : Numeral :=
  ⟨n < 0, Decimal.natDigits n.natAbs⟩

theorem toList_numeralOf (n : Int) : (numeralOf n).toList = Decimal.intDigits n := by
  simp only [numeralOf, Numeral.toList, decide_eq_true_eq, Decimal.intDigits]

theorem toInt_numeralOf (n : Int) : (numeralOf n).toInt = n := by
  have hvalue : Numeral.ofDigits (Decimal.natDigits n.natAbs) = n.natAbs :=
    Nat.ofDigitChars_ten_toDigits
  simp only [numeralOf, Numeral.toInt, decide_eq_true_eq, hvalue]
  split <;> omega

theorem isDigit_of_mem_natDigits {n : Nat} :
    ∀ c ∈ Decimal.natDigits n, IsDigit c := by
  intro c hc
  exact isDigit_iff.mp (Nat.isDigit_of_mem_toDigits (by decide) (by decide) hc)

theorem toList_injective_of_isDigit {m n : Numeral}
    (hm : ∀ c ∈ m.digits, IsDigit c) (hn : ∀ c ∈ n.digits, IsDigit c)
    (h : m.toList = n.toList) : m = n := by
  have hminus : ¬ IsDigit '-' := by decide
  obtain ⟨mneg, mdigits⟩ := m
  obtain ⟨nneg, ndigits⟩ := n
  cases mneg <;> cases nneg <;> simp only [Numeral.toList] at h
  · exact congrArg (Numeral.mk false) h
  · exact absurd (hm '-' (by simp [show mdigits = _ from h])) hminus
  · exact absurd (hn '-' (by simp [← show _ = ndigits from h])) hminus
  · exact congrArg (Numeral.mk true) (List.cons.inj h).2

theorem length_natDigits_le (i : Index) :
    (Decimal.natDigits i.val.natAbs).length ≤ digitLimit := by
  have hlength : (Nat.toDigits 10 i.val.natAbs).length ≤ 19 := by
    rw [Nat.length_toDigits_le_iff (by decide) (by decide)]
    have hleast := i.least_le
    have hgreatest := i.le_greatest
    simp only [leastWord] at hleast
    simp only [greatestWord] at hgreatest
    omega
  exact Nat.le_trans hlength (by decide)

theorem exists_body_write (step : Step) :
    ∃ body, step.write = '[' :: (body ++ [']']) ∧ Body body step ∧ Short body := by
  cases step with
  | key name =>
      refine ⟨Text.singleQuote :: (escapeKey name.toList ++ [Text.singleQuote]),
        ?_, ?_, short_of_front (by decide) (by decide) _⟩
      · simp [Step.write, writeKey]
      · have hbody := Body.quoted (quotes_escapeKey name.toList)
        rwa [String.ofList_toList] at hbody
  | index i =>
      have hdigits : ∀ c ∈ (numeralOf i.val).digits, IsDigit c :=
        isDigit_of_mem_natDigits
      refine ⟨(numeralOf i.val).toList, ?_, ?_, ?_⟩
      · rw [toList_numeralOf]
        rfl
      · exact Body.number Nat.toDigits_ne_nil hdigits (toInt_numeralOf i.val).symm
      · intro n hn htext
        rw [toList_injective_of_isDigit hn hdigits htext]
        exact length_natDigits_le i
  | here =>
      exact ⟨['s', 'e', 'l', 'f'], rfl, Body.here,
        short_of_front (by decide) (by decide) _⟩

theorem readStep_write_append (step : Step) {rest : List Char}
    (hrest : Clear (· = '.') rest) :
    readStep (step.write ++ rest) = .ok (step, rest) := by
  obtain ⟨body, htext, hbody, hshort⟩ := exists_body_write step
  have hspells : Spells (dots 0 ++ rest) step.write step := by
    rw [htext]
    exact Spells.subscript hbody
  refine readStep_of_spells hspells ?_ hrest
  intro other hother
  rw [htext] at hother
  rw [← List.append_cancel_right (List.cons.inj hother).2]
  exact hshort

theorem eq_of_write_append {step other : Step} {rest more : List Char}
    (hrest : Clear (· = '.') rest) (hmore : Clear (· = '.') more)
    (h : step.write ++ rest = other.write ++ more) : step = other ∧ rest = more := by
  have hread := congrArg readStep h
  rw [readStep_write_append step hrest, readStep_write_append other hmore] at hread
  cases hread
  exact ⟨rfl, rfl⟩

theorem clear_dot_writeSteps (steps : List Step) :
    Clear (· = '.') (writeSteps steps) := by
  cases steps with
  | nil => exact clear_nil _
  | cons step steps =>
      obtain ⟨body, htext, -, -⟩ := exists_body_write step
      rw [writeSteps, List.flatMap_cons, htext]
      exact clear_cons_iff.mpr (by decide)

theorem readAll_writeSteps (steps : List Step) :
    readAll (writeSteps steps) = .ok steps := by
  induction steps with
  | nil => exact readAll_nil
  | cons step steps ih =>
      have hstep : readStep (step.write ++ writeSteps steps) =
          .ok (step, writeSteps steps) :=
        readStep_write_append step (clear_dot_writeSteps steps)
      rw [writeSteps, List.flatMap_cons, ← writeSteps, readAll_of_readStep hstep, ih]
      rfl

theorem parseSteps_renderSteps (steps : List Step) :
    parseSteps (renderSteps steps) = .ok steps := by
  rw [parseSteps, renderSteps, String.toList_ofList, readAll_writeSteps]
  rfl

/-- Every path, however it came about and whatever its keys are made of, is what
its own text stands for. -/
theorem parse_render (p : Path) :
    parseSteps (renderSteps p.steps) = .ok p.steps ∧
      ∀ s : Session, s.Ready → Session.outcome (Session.parse p.render) s = .ok p := by
  have hsteps := parseSteps_renderSteps p.steps
  refine ⟨hsteps, ?_⟩
  intro s hs
  rw [Session.outcome_parse hs, Session.readPath, Path.render, hsteps]
  rfl

theorem parse_render_quotes_and_backticks :
    let p : Path := ⟨[.key "``'`''", .key "", .key "]['.\n", .here,
      .index ⟨leastWord, by decide, by decide⟩, .key "`"]⟩
    Session.Ready {} ∧ parseSteps (renderSteps p.steps) = .ok p.steps ∧
      Session.outcome (Session.parse p.render) {} = .ok p := by
  intro p
  exact ⟨Session.ready_new, (parse_render p).1,
    (parse_render p).2 {} Session.ready_new⟩

end TreePath.RoundTrip
