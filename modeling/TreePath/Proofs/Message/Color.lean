import Mathlib.Data.List.Basic
import Mathlib.Data.List.TakeWhile
import TreePath.Message.Record

/-!
The colour of a message's first word. Dropping control codes does not change where the
first word ends, but the word is measured before they are dropped.
-/

namespace TreePath.LogRecord

open TreePath.Styled

/-- How many characters a text loses. -/
def dropped (s : List Char) : Nat :=
  (s.filter isDropped).length

/-- A style over so many characters from the start. There is no span over none. -/
def leading (style : String) (count : Nat) : List Span :=
  if count = 0 then [] else [⟨0, count, style⟩]

theorem leading_injective {style : String} {m n : Nat} (h : leading style m = leading style n) :
    m = n := by
  unfold leading at h
  split at h <;> split at h
  · omega
  · cases h
  · cases h
  · cases h
    rfl

variable (s : List Char)

theorem clean_append (first second : List Char) :
    clean (first ++ second) = clean first ++ clean second :=
  List.filter_append _ _

theorem length_eq_length_clean_add : s.length = (clean s).length + dropped s := by
  rw [Nat.add_comm]
  exact List.length_eq_length_filter_add isDropped

theorem ne_space_of_isDropped {c : Char} (h : isDropped c = true) : c ≠ ' ' := by
  rintro rfl
  revert h
  decide

theorem firstWord_clean : firstWord (clean s) = clean (firstWord s) := by
  -- a dropped character is no space, so it does not end the word
  have hspace : (fun c => !!isDropped c || c != ' ') = fun c => c != ' ' := by
    funext c
    cases h : isDropped c with
    | false => rfl
    | true => simpa using ne_space_of_isDropped h
  rw [firstWord, clean, List.takeWhile_filter, hspace]
  rfl

/-- What stands behind the first word: nothing, or a space and more. -/
def behindFirstWord : List Char :=
  s.dropWhile (· != ' ')

theorem firstWord_append_behindFirstWord : firstWord s ++ behindFirstWord s = s :=
  List.takeWhile_append_dropWhile

theorem clean_behindFirstWord_eq_nil_iff : clean (behindFirstWord s) = [] ↔ ' ' ∉ s := by
  constructor
  · intro h hspace
    rw [← firstWord_append_behindFirstWord s, List.mem_append] at hspace
    rcases hspace with hfirst | hbehind
    · have := List.mem_takeWhile_imp hfirst
      simp at this
    · have hkept : ' ' ∈ clean (behindFirstWord s) := List.mem_filter.mpr ⟨hbehind, by decide⟩
      rw [h] at hkept
      cases hkept
  · intro hspace
    have hnil : behindFirstWord s = [] := by
      rw [behindFirstWord, List.dropWhile_eq_nil_iff]
      intro c hc
      rw [bne_iff_ne]
      rintro rfl
      exact hspace hc
    rw [hnil]
    rfl

theorem dropped_eq_zero_iff : dropped s = 0 ↔ ∀ c ∈ s, isDropped c = false := by
  simp [dropped]

theorem plain_styleFirst (t : Styled) (style : String) (count : Nat) :
    (t.styleFirst style count).plain = t.plain := by
  unfold styleFirst
  split <;> rfl

theorem spans_styleFirst {style : String} (hstyle : style ≠ "") (count : Nat) :
    ((ofText s).styleFirst style count).spans = leading style (min (clean s).length count) := by
  have hempty : (style = "" ∨ (ofText s).length = 0 ∨ count = 0) ↔
      min (clean s).length count = 0 := by
    rw [Nat.min_eq_zero_iff, or_iff_right hstyle]
    rfl
  unfold styleFirst leading
  by_cases h : min (clean s).length count = 0
  · rw [if_pos (hempty.mpr h), if_pos h]
    rfl
  · rw [if_neg (mt hempty.mp h), if_neg h]
    rfl

/-- By how many characters the colour runs past the first word. -/
def excess : Nat :=
  min (dropped (firstWord s)) (clean (behindFirstWord s)).length

theorem length_clean :
    (clean s).length = (clean (firstWord s)).length + (clean (behindFirstWord s)).length := by
  rw [← List.length_append, ← clean_append, firstWord_append_behindFirstWord]

theorem min_length_clean :
    min (clean s).length (firstWord s).length = (clean (firstWord s)).length + excess s := by
  rw [length_clean, length_eq_length_clean_add (firstWord s), excess]
  omega

theorem excess_eq_zero_iff :
    excess s = 0 ↔ (∀ c ∈ firstWord s, isDropped c = false) ∨ ' ' ∉ s := by
  rw [excess, Nat.min_eq_zero_iff, dropped_eq_zero_iff, List.length_eq_zero_iff,
    clean_behindFirstWord_eq_nil_iff]

/-- A coloured message has at most one span, from its start over the first word and as many
characters more as control codes were dropped from that word, if so many follow. It ends
with the word only if none was dropped there or nothing follows. -/
theorem color_runs_past_first_word (r : LogRecord) (message : List Char)
    (hmessage : r.message = .ok message) :
    ∃ text, r.styledMessage = .ok text ∧ text.plain = clean message ∧
      (r.color = none ∨ r.color = some "" → text.spans = []) ∧
      ∀ style, r.color = some style → style ≠ "" →
        let word := firstWord text.plain
        let more := min (dropped (firstWord message)) (text.plain.length - word.length)
        text.spans = leading style (word.length + more) ∧
          (text.spans = leading style word.length ↔
            (∀ c ∈ firstWord message, isDropped c = false) ∨ ' ' ∉ message) := by
  have hplain : (styleMessage r.color message).plain = clean message := by
    unfold styleMessage
    dsimp only
    split
    · rfl
    · exact plain_styleFirst _ _ _
  refine ⟨styleMessage r.color message, ?_, hplain, ?_, ?_⟩
  · rw [styledMessage, hmessage]
    rfl
  · rintro (hcolor | hcolor)
    · rw [hcolor]
      rfl
    · rw [hcolor]
      rfl
  · intro style hcolor hstyle word more
    have hword : word = clean (firstWord message) := by
      rw [← firstWord_clean, ← hplain]
    have hmore : more = excess message := by
      simp only [more, hplain, hword, length_clean message, Nat.add_sub_cancel_left, excess]
    have hspans : (styleMessage r.color message).spans =
        leading style (word.length + more) := by
      rw [hcolor, hword, hmore, ← min_length_clean]
      exact spans_styleFirst message hstyle _
    refine ⟨hspans, ?_⟩
    rw [hspans, ← excess_eq_zero_iff, ← hmore]
    constructor
    · intro h
      have := leading_injective h
      omega
    · intro h
      rw [h]
      rfl

theorem color_runs_past_first_word_to_end :
    let r : LogRecord := ⟨10, "a.py", 1, "\x07%s%s ", [.str "a", .str "\r"], 0, some "cyan"⟩
    let message : List Char := ['\x07', 'a', '\r', ' ']
    r.message = .ok message ∧
      ∃ text, r.styledMessage = .ok text ∧ text.plain = ['a', ' '] ∧
        firstWord text.plain = ['a'] ∧ text.spans = [⟨0, 2, "cyan"⟩] := by
  intro r message
  have hmessage : r.message = .ok message := by decide +kernel
  obtain ⟨text, htext, hplain, -, hcolored⟩ := color_runs_past_first_word r message hmessage
  obtain ⟨hspans, -⟩ := hcolored "cyan" rfl (by decide)
  have hclean : text.plain = ['a', ' '] := hplain.trans (by decide)
  rw [hclean] at hspans
  refine ⟨hmessage, text, htext, hclean, ?_, ?_⟩
  · rw [hclean]
    decide
  · rw [hspans]
    decide

/-- The first word has two characters, and the colour is over three. -/
theorem color_covers_space_behind_dropped_code :
    let r : LogRecord := ⟨10, "a.py", 1, "\x07ab cd", [], 0, some "cyan"⟩
    r.styledMessage = .ok ⟨"ab cd".toList, [⟨0, 3, "cyan"⟩]⟩ ∧
      firstWord "ab cd".toList = ['a', 'b'] := by
  decide +kernel

end TreePath.LogRecord
