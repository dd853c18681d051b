import TreePath.Proofs.Reading.RoundTrip
import TreePath.Proofs.Text.Literal
import TreePath.Session

namespace TreePath.Trace

open TreePath.RoundTrip (parseSteps_renderSteps)

/-- The word for why a traversal failed. -/
def reasonWord : TraversalCause → String
  | .wrongType _ _ => "unexpectedType"
  | .noElement _ => "invalidSubscript"
  | .missingValue => "missingValue"

/-- The emission for a text that was read anew, with its literal and the number of its
steps, and the one for a failed traversal, with its path and the reason. -/
def due : TraceEvent → Emission
  | .parsed text count =>
    ⟨"DEBUG", "parse " ++ Text.quote text ++ " (" ++ toString count ++ " components)", "cyan"⟩
  | .fetchFailed path reason =>
    ⟨"DEBUG", "traverse " ++ path ++ " failed: " ++ reason, "yellow"⟩

theorem reason_eq_reasonWord (cause : TraversalCause) : cause.reason = reasonWord cause := by
  cases cause <;> rfl

theorem emission_eq_due (event : TraceEvent) : event.emission = due event := by
  cases event <;> rfl

theorem eq_parsed_of_due {event : TraceEvent} {text : String} {count : Nat}
    (h : due event = due (.parsed text count)) : event = .parsed text count := by
  cases event with
  | fetchFailed path reason =>
      have hcolor : "yellow" = "cyan" := congrArg Emission.color h
      exact absurd hcolor (by decide)
  | parsed other number =>
      have htext := congrArg (fun e => e.text.toList) h
      simp only [due, String.toList_append, Text.quote, String.toList_ofList, List.append_assoc,
        List.append_cancel_left_eq] at htext
      obtain ⟨hlist, hcount⟩ := Text.quoted_append_injective htext
      rw [List.append_cancel_left_eq, List.append_cancel_right_eq, Nat.toString_eq_repr,
        Nat.toString_eq_repr, Nat.toList_repr, Nat.toList_repr] at hcount
      have hnumber : number = count := by
        simpa only [Nat.ofDigitChars_ten_toDigits] using
          congrArg (Nat.ofDigitChars 10 · 0) hcount
      rw [String.toList_injective hlist, hnumber]

theorem reasonWord_mem (cause : TraversalCause) :
    reasonWord cause ∈ ["unexpectedType", "invalidSubscript", "missingValue"] := by
  cases cause <;> simp [reasonWord]

/-- The reasons differ in their last two characters. -/
theorem eq_of_append_reasonWord {first second : List Char} {cause other : TraversalCause}
    (h : first ++ (reasonWord cause).toList = second ++ (reasonWord other).toList) :
    first = second ∧ reasonWord cause = reasonWord other := by
  let words := ["unexpectedType", "invalidSubscript", "missingValue"]
  have hlong : ∀ word ∈ words, 2 ≤ word.toList.reverse.length := by decide
  have hdiffer : ∀ word ∈ words, ∀ other ∈ words,
      word.toList.reverse.take 2 = other.toList.reverse.take 2 → word = other := by decide
  have hword : reasonWord cause = reasonWord other := by
    refine hdiffer _ (reasonWord_mem cause) _ (reasonWord_mem other) ?_
    have hend := congrArg (fun s => s.reverse.take 2) h
    simpa only [List.reverse_append, List.take_append_of_le_length (hlong _ (reasonWord_mem _))]
      using hend
  rw [hword] at h
  exact ⟨List.append_cancel_right h, hword⟩

theorem eq_of_due_fetchFailed {p q : Path} {cause other : TraversalCause}
    (h : due (.fetchFailed p.render (reasonWord cause)) =
      due (.fetchFailed q.render (reasonWord other))) :
    p = q ∧ reasonWord cause = reasonWord other := by
  have htext := congrArg (fun e => e.text.toList) h
  simp only [due, String.toList_append] at htext
  obtain ⟨hfront, hword⟩ := eq_of_append_reasonWord htext
  rw [List.append_cancel_right_eq, List.append_cancel_left_eq] at hfront
  have hsteps := congrArg parseSteps (String.toList_injective hfront)
  rw [Path.render, Path.render, parseSteps_renderSteps, parseSteps_renderSteps] at hsteps
  cases p
  cases q
  cases hsteps
  exact ⟨rfl, hword⟩

end TreePath.Trace
