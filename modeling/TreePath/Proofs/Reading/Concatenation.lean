import TreePath.Proofs.Reading.Seam
import TreePath.Proofs.Result

namespace TreePath.Concatenation

open TreePath.Acceptance
open TreePath.Grammar
open TreePath.Reading
open TreePath.Result
open TreePath.RoundTrip
open TreePath.Seam

/-- The error as it shows with a text in front. A number too long has no
position. -/
def errorBehind (front : String) : ParseError → ParseError
  | .flawed f => .flawed ⟨front ++ f.text, front.length + f.position, f.flaw⟩
  | .overlong e => .overlong e

theorem toError_append (front text : String) (h : Halt) :
    h.toError (front ++ text) = errorBehind front (h.toError text) := by
  cases h with
  | flawed flaw rest =>
      simp only [Halt.toError, errorBehind, String.toList_append, List.length_append,
        String.length_toList, Int.natCast_add, Int.add_sub_assoc]
  | overlong e => rfl

theorem parseSteps_eq_ok_iff {text : String} {steps : List Step} :
    parseSteps text = .ok steps ↔ readAll text.toList = .ok steps :=
  mapError_eq_ok_iff

theorem readAll_append {front rest : List Char} {steps more : List Step}
    (hfront : readAll front = .ok steps) (hrest : readAll rest = .ok more)
    (hapart : ¬ Merges front rest) : readAll (front ++ rest) = .ok (steps ++ more) := by
  have hdot := clear_dot_of_written (written_of_readAll hrest)
  rw [readAll_eq_ok_iff] at hrest ⊢
  rw [pull_append hfront (Or.inr ⟨hdot, hapart⟩), hrest]

theorem not_merges_dots (front : List Char) (k : Nat) : ¬ Merges front (dots k) := by
  refine not_merges_of_clear ?_
  cases k with
  | zero => exact clear_nil _
  | succ k => exact clear_cons_iff.mpr (by decide)

theorem readAll_append_dots {front : List Char} {steps : List Step}
    (hread : readAll front = .ok steps) (hfront : front ≠ []) (k : Nat) :
    readAll (front ++ dots k) = .ok steps := by
  induction hread using readAll_induction with
  | nil => exact absurd rfl hfront
  | cons first rest step steps hstep hrest hfirst hclear hapart ih =>
      rw [List.append_assoc]
      -- The last step takes the dots; the steps before it do not see them.
      by_cases hnil : rest = []
      · subst hnil
        refine readAll_cons ?_ hrest
        have hdots := readStep_before_dots hstep k (clear_nil _)
          (by simpa only [List.append_nil] using not_merges_dots first k)
        rwa [List.append_nil] at hdots
      · refine readAll_cons ?_ (ih hnil)
        exact readStep_before hstep (clear_append hclear fun h => absurd h hnil)
          (not_merges_append hapart fun h => absurd h hnil)

theorem exists_writeKey_eq_concat (name : List Char) :
    ∃ inner, writeKey name = inner ++ [']'] :=
  ⟨'[' :: Text.singleQuote :: (escapeKey name ++ [Text.singleQuote]), by
    simp [writeKey]⟩

theorem readAll_writeKey (name : String) :
    readAll (writeKey name.toList) = .ok [.key name] := by
  have hkey := readAll_writeSteps [.key name]
  rwa [writeSteps, List.flatMap_singleton] at hkey

/-- A text that can be read gives its steps in front of any text that neither starts with a
dot nor lengthens an identifier at its end. Behind them stands what the other text gives,
with the position of an error moved by the length of the first. -/
theorem reading_is_compositional (u : String) (us : List Step)
    (hu : parseSteps u = .ok us) :
    (∀ w : String, Clear (· = '.') w.toList → ¬ Merges u.toList w.toList →
      pull none (u ++ w).toList =
        (us ++ (pull none w.toList).1, (pull none w.toList).2) ∧
      ∀ h, (pull none w.toList).2 = .halted h →
        h.toError (u ++ w) = errorBehind u (h.toError w)) ∧
    ∀ (t : String) (ts : List Step), parseSteps t = .ok ts →
      (u ≠ "" → ∀ k, 1 ≤ k →
        parseSteps (u ++ String.ofList (dots k) ++ t) = .ok (us ++ ts)) ∧
      ∀ x : String, parseSteps (u ++ String.ofList (writeKey x.toList) ++ t) =
        .ok (us ++ [.key x] ++ ts) := by
  rw [parseSteps_eq_ok_iff] at hu
  refine ⟨?_, ?_⟩
  · intro w hdot hmerge
    rw [String.toList_append]
    exact ⟨pull_append hu (Or.inr ⟨hdot, hmerge⟩), fun h _ => toError_append u w h⟩
  · intro t ts ht
    simp only [parseSteps_eq_ok_iff, String.toList_append, String.toList_ofList] at ht ⊢
    refine ⟨?_, ?_⟩
    · intro hne k hk
      obtain ⟨j, rfl⟩ := Nat.exists_eq_add_of_le' hk
      have hnil : u.toList ≠ [] := fun hnil => hne (String.toList_inj.mp hnil)
      exact readAll_append (readAll_append_dots hu hnil (j + 1)) ht
        (not_merges_append_dots j)
    · intro x
      have hkey : readAll (u.toList ++ writeKey x.toList) = .ok (us ++ [.key x]) :=
        readAll_append hu (readAll_writeKey x)
          (not_merges_of_clear (clear_cons_iff.mpr (by decide)))
      refine readAll_append hkey ht ?_
      obtain ⟨inner, hinner⟩ := exists_writeKey_eq_concat x.toList
      rw [hinner, ← List.append_assoc]
      exact not_merges_concat (by decide)

theorem reading_is_compositional_behind_identifier :
    let u := "a.b1"
    let us : List Step := [.key "a", .key "b1"]
    let w := "['c']d e]"
    parseSteps u = .ok us ∧ Clear (· = '.') w.toList ∧ ¬ Merges u.toList w.toList ∧
      pull none (u ++ w).toList =
        (us ++ [.key "c", .key "d"], .halted (.flawed .stepExpected " e]".toList)) ∧
      parseSteps (u ++ String.ofList (dots 2) ++ "c") = .ok (us ++ [.key "c"]) ∧
      parseSteps (u ++ String.ofList (writeKey "`'].z['".toList) ++ "c") =
        .ok (us ++ [.key "`'].z['"] ++ [.key "c"]) := by
  intro u us w
  have hu : parseSteps u = .ok us := by decide +kernel
  have hc : parseSteps "c" = .ok [.key "c"] := by decide +kernel
  have hdot : Clear (· = '.') w.toList := by decide +kernel
  have hmerge : ¬ Merges u.toList w.toList := not_merges_of_clear (by decide +kernel)
  have hw : pull none w.toList =
      ([.key "c", .key "d"], .halted (.flawed .stepExpected " e]".toList)) := by
    decide +kernel
  obtain ⟨happend, hjoin⟩ := reading_is_compositional u us hu
  refine ⟨hu, hdot, hmerge, ?_, (hjoin "c" _ hc).1 (by decide) 2 (by decide),
    (hjoin "c" _ hc).2 "`'].z['"⟩
  rw [(happend w hdot hmerge).1, hw]

end TreePath.Concatenation
