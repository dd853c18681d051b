import TreePath.Proofs.Reader.Access
import TreePath.Proofs.Reading.RoundTrip

namespace TreePath.Message

open TreePath.Access
open TreePath.RoundTrip
open TreePath.TraversalFault

/-- How many line breaks stand in a step's key. -/
def keyBreaks : Step → Nat
  | .key name => name.toList.count '\n'
  | _ => 0

/-- How many line breaks stand in the key that a fault names. -/
def causeBreaks : TraversalCause → Nat
  | .noElement step => keyBreaks step
  | _ => 0

section Number

theorem newline_notMem_natDigits (n : Nat) : '\n' ∉ Decimal.natDigits n := by
  intro h
  exact absurd (isDigit_of_mem_natDigits '\n' h) (by decide)

theorem newline_notMem_intDigits (n : Int) : '\n' ∉ Decimal.intDigits n := by
  unfold Decimal.intDigits
  split
  · exact List.not_mem_cons_of_ne_of_not_mem (by decide) (newline_notMem_natDigits _)
  · exact newline_notMem_natDigits _

theorem digitChar_ne_newline : ∀ d < 16, Nat.digitChar d ≠ '\n' := by
  decide

theorem newline_notMem_toDigits (n : Nat) : '\n' ∉ Nat.toDigits 16 n := by
  induction n using Nat.strong_induction_on with
  | _ n ih =>
      rw [Nat.toDigits_eq_if (by decide)]
      split
      · rename_i hn
        exact List.not_mem_cons_of_ne_of_not_mem (digitChar_ne_newline n hn).symm
          List.not_mem_nil
      · rw [List.mem_append, List.mem_singleton]
        rintro (h | h)
        · exact ih (n / 16) (Nat.div_lt_self (by omega) (by decide)) h
        · exact digitChar_ne_newline _ (Nat.mod_lt n (by decide)) h.symm

theorem newline_notMem_hexDigits (width n : Nat) : '\n' ∉ Text.hexDigits width n := by
  rw [Text.hexDigits, List.mem_append, List.mem_replicate]
  rintro (⟨-, h⟩ | h)
  · cases h
  · exact newline_notMem_toDigits n h

end Number

section Text

theorem newline_notMem_escapeChar {plain : Char → Bool} {quote : Char} (hquote : quote ≠ '\n')
    (c : Char) : '\n' ∉ Text.escapeChar plain quote c := by
  unfold Text.escapeChar
  split
  · rename_i h
    have hc : c ≠ '\n' := by
      rintro rfl
      rcases h with h | h
      · exact hquote h.symm
      · cases h
    simp [hc.symm]
  · split
    · rename_i letter hletter
      unfold Text.escapeLetter? at hletter
      split at hletter <;> cases hletter <;> decide
    · rename_i hletter
      have hc : c ≠ '\n' := by
        rintro rfl
        cases hletter
      split
      · simp [hc.symm]
      · unfold Text.hexEscape
        split_ifs <;> simp [newline_notMem_hexDigits]

theorem newline_notMem_quoted (s : List Char) : '\n' ∉ Text.quoted s := by
  have hquote : Text.quoteFor s ≠ '\n' := by
    unfold Text.quoteFor
    split <;> decide
  simp only [Text.quoted, Text.quotedWith, List.mem_cons, List.mem_append, List.mem_flatMap,
    List.not_mem_nil, or_false]
  rintro (h | ⟨c, -, hc⟩ | h)
  · exact hquote h.symm
  · exact newline_notMem_escapeChar hquote c hc
  · exact hquote h.symm

theorem newline_notMem_typeName (t : ValueType) : '\n' ∉ t.name.toList := by
  cases t with
  | other c => exact c.newline_notMem_name
  | _ => decide

theorem newline_notMem_kindName (k : Kind) : '\n' ∉ k.name.toList := by
  cases k <;> decide

theorem newline_notMem_intercalate {sep : String} (hsep : '\n' ∉ sep.toList) {texts : List String}
    (h : ∀ t ∈ texts, '\n' ∉ t.toList) : '\n' ∉ (sep.intercalate texts).toList := by
  induction texts with
  | nil => exact List.not_mem_nil
  | cons t rest ih =>
      have hrest := ih fun u hu => h u (List.mem_cons_of_mem _ hu)
      have ht := h t List.mem_cons_self
      by_cases hnil : rest = []
      · subst hnil
        rwa [String.intercalate_singleton]
      · rw [String.intercalate_cons_of_ne_nil hnil]
        simp only [String.toList_append, List.mem_append, ht, hsep, hrest, or_self,
          not_false_eq_true]

mutual

theorem newline_notMem_describe (e : Expected) : '\n' ∉ e.describe.toList := by
  cases e with
  | type t => exact newline_notMem_typeName t
  | oneOf es => exact newline_notMem_intercalate (by decide) (newline_notMem_describeAll es)

theorem newline_notMem_describeAll (es : List Expected) :
    ∀ t ∈ Expected.describeAll es, '\n' ∉ t.toList := by
  cases es with
  | nil => exact nofun
  | cons e rest =>
      exact List.forall_mem_cons.mpr
        ⟨newline_notMem_describe e, newline_notMem_describeAll rest⟩

end

theorem count_escapeKey (name : List Char) : (escapeKey name).count '\n' = name.count '\n' := by
  induction name with
  | nil => rfl
  | cons c name ih =>
      by_cases hc : Grammar.IsEscapable c
      · rw [escapeKey_cons_of_escapable hc, List.count_cons_of_ne (by decide), List.count_cons,
          List.count_cons, ih]
      · rw [escapeKey_cons_of_plain hc, List.count_cons, List.count_cons, ih]

theorem count_write (step : Step) : step.write.count '\n' = keyBreaks step := by
  cases step with
  | key name =>
      rw [Step.write, writeKey, List.count_cons_of_ne (by decide),
        List.count_cons_of_ne (by decide), List.count_append, count_escapeKey]
      rfl
  | index i =>
      have hdigits := List.count_eq_zero.mpr (newline_notMem_intDigits i.val)
      rw [Step.write, List.count_cons_of_ne (by decide), List.count_append, hdigits]
      rfl
  | here => rfl

end Text

section Fault

/-- The faults that a fetch can end in. An element can be lacking only at a step of the
trail, and there is no trail to the absent value. -/
inductive Arisen : TraversalFault → Prop where
  | kind (path : Path) (trail : List Visit) (failedStep : Option Int) (wanted actual : Kind) :
      Arisen ⟨path, trail, failedStep, .wrongType (.kind wanted) actual⟩
  | type (path : Path) (trail : List Visit) (failedStep : Option Int) (wanted : Expected)
      (actual : Kind) : Arisen ⟨path, trail, failedStep, .wrongType (.value wanted) actual⟩
  | element (path : Path) {trail : List Visit} (failedStep : Option Int) {visit : Visit}
      (h : visit ∈ trail) : Arisen ⟨path, trail, failedStep, .noElement visit.step⟩
  | missing (path : Path) : Arisen (.ofMissing path)

variable {f : TraversalFault}

theorem arisen_ofBlocked (p : Path) (b : Blocked) : Arisen (.ofBlocked p b) := by
  obtain ⟨before, last, obstacle⟩ := b
  cases obstacle with
  | wrongKind wanted actual => exact .kind p _ _ wanted actual
  | noElement => exact .element p _ (List.mem_append_right before (List.mem_singleton_self last))

theorem arisen_of_fetch {root substitute : Value} {p : Path} {expected : Expected}
    (h : fetch root p expected substitute = .error (.traversal f)) : Arisen f := by
  rcases resolve_cases root p with ⟨g, hg⟩ | ⟨trail, hg⟩ | ⟨v, trail, hg, hv⟩
  · rw [fetch_of_error hg] at h
    cases h
    obtain ⟨b, -, rfl⟩ := Result.mapError_eq_error_iff.mp hg
    exact arisen_ofBlocked p b
  · rw [fetch_of_missing hg] at h
    cases h
    exact .missing p
  · rw [fetch_of_present hg hv, handOut] at h
    split at h <;> cases h
    exact .type p trail none expected _

theorem newline_notMem_location (failedStep : Option Int) :
    '\n' ∉ ((failedStep.map stepNumber).getD "at end of path").toList := by
  cases failedStep with
  | none => decide
  | some n => simp [stepNumber, newline_notMem_intDigits]

theorem newline_notMem_headline (h : Arisen f) (hcause : ∀ step, f.cause ≠ .noElement step) :
    '\n' ∉ f.headline.toList := by
  cases h with
  | kind path trail failedStep wanted actual =>
      simp [headline, summary, Wanted.describe, Text.quote, newline_notMem_quoted,
        newline_notMem_location, newline_notMem_kindName]
  | type path trail failedStep wanted actual =>
      simp [headline, summary, Wanted.describe, Text.quote, newline_notMem_quoted,
        newline_notMem_location, newline_notMem_describe, newline_notMem_kindName]
  | element path failedStep hvisit => exact absurd rfl (hcause _)
  | missing path => simp [headline, summary, Text.quote, newline_notMem_quoted, ofMissing]

/-- What stands in a headline behind the step that it names. -/
def behindStep (f : TraversalFault) : List Char :=
  (" " ++ (f.failedStep.map stepNumber).getD "at end of path"
    ++ " while fetching value for path " ++ Text.quote f.path.render).toList

theorem newline_notMem_behindStep (f : TraversalFault) : '\n' ∉ behindStep f := by
  simp [behindStep, Text.quote, newline_notMem_quoted, newline_notMem_location]

theorem headline_of_noElement {step : Step} (hcause : f.cause = .noElement step) :
    f.headline.toList = "invalid subscript ".toList ++ (step.write ++ behindStep f) := by
  simp [headline, summary, hcause, behindStep, Step.render]

theorem count_headline (h : Arisen f) :
    f.headline.toList.count '\n' = causeBreaks f.cause := by
  cases hcause : f.cause with
  | noElement step =>
      have hbehind := List.count_eq_zero.mpr (newline_notMem_behindStep f)
      rw [headline_of_noElement hcause, List.count_append, List.count_append, count_write,
        hbehind]
      exact Nat.zero_add _
  | _ =>
      refine List.count_eq_zero.mpr (newline_notMem_headline h ?_)
      intro step hstep
      rw [hcause] at hstep
      cases hstep

end Fault

end TreePath.Message
