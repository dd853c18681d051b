import TreePath.Proofs.Message.Headline
import TreePath.Proofs.Reader.Lenient

namespace TreePath.Message

open TreePath.Access
open TreePath.Reading
open TreePath.RoundTrip
open TreePath.TraversalFault
open TreePath.Session (outcome)

def lines (text : String) : List (List Char) :=
  text.toList.splitOn '\n'

/-- How many line breaks stand in the keys of a trail. -/
def trailBreaks : List Visit → Nat
  | [] => 0
  | visit :: trail => keyBreaks visit.step + trailBreaks trail

/-- What a message shows of a visit. -/
def shown (visit : Visit) : Step × Kind :=
  (visit.step, visit.value.kind)

/-- What stands in a message behind its headline. -/
def behindHeadline (first : Nat) (trail : List Visit) : List Char :=
  (trailLines first trail).flatMap fun line => '\n' :: line.toList

section Lines

theorem length_lines (text : String) : (lines text).length = text.toList.count '\n' + 1 := by
  rw [lines]
  induction text.toList with
  | nil => rfl
  | cons c s ih =>
      rw [List.splitOn_cons_eq_if_modifyHead, List.count_cons]
      split
      · rw [List.length_cons, ih]
      · rw [List.length_modifyHead, ih]

theorem toList_message (f : TraversalFault) :
    f.message.toList = f.headline.toList ++ behindHeadline 0 f.trail := by
  have hjoined : ∀ (line : String) (more : List String),
      ("\n".intercalate (line :: more)).toList =
        line.toList ++ more.flatMap fun line => '\n' :: line.toList := by
    intro line more
    induction more generalizing line with
    | nil => simp
    | cons next more ih =>
        rw [String.intercalate_cons_of_ne_nil (List.cons_ne_nil next more),
          String.toList_append, ih]
        simp
  exact hjoined _ _

theorem getElem?_trailLines (first i : Nat) (trail : List Visit) :
    (trailLines first trail)[i]? = trail[i]?.map (trailLine (first + i)) := by
  induction trail generalizing first i with
  | nil => rfl
  | cons visit trail ih =>
      cases i with
      | zero => rfl
      | succ i =>
          rw [trailLines, List.getElem?_cons_succ, List.getElem?_cons_succ, ih,
            Nat.add_right_comm, Nat.add_assoc]

theorem toList_trailLine (number : Nat) (visit : Visit) :
    (trailLine number visit).toList =
      "  ".toList ++ Decimal.natDigits number ++ ": ".toList ++
        (visit.step.write ++ (" on ".toList ++ visit.value.kind.name.toList)) := by
  simp [trailLine, Step.render]

theorem count_trailLine (number : Nat) (visit : Visit) :
    (trailLine number visit).toList.count '\n' = keyBreaks visit.step := by
  have hdigits := List.count_eq_zero.mpr (newline_notMem_natDigits number)
  have hkind := List.count_eq_zero.mpr (newline_notMem_kindName visit.value.kind)
  simp only [toList_trailLine, List.count_append, count_write, hdigits, hkind]
  simp

theorem count_behindHeadline (first : Nat) (trail : List Visit) :
    (behindHeadline first trail).count '\n' = trail.length + trailBreaks trail := by
  induction trail generalizing first with
  | nil => rfl
  | cons visit trail ih =>
      rw [behindHeadline, trailLines, List.flatMap_cons, ← behindHeadline, List.cons_append,
        List.count_cons_self, List.count_append, count_trailLine, ih, trailBreaks,
        List.length_cons]
      omega

theorem trailBreaks_eq_zero_iff (trail : List Visit) :
    trailBreaks trail = 0 ↔ ∀ visit ∈ trail, keyBreaks visit.step = 0 := by
  induction trail with
  | nil => simp [trailBreaks]
  | cons visit trail ih =>
      rw [trailBreaks, Nat.add_eq_zero_iff, ih, List.forall_mem_cons]

variable {f : TraversalFault}

theorem length_lines_message (h : Arisen f) :
    (lines f.message).length =
      1 + f.trail.length + (causeBreaks f.cause + trailBreaks f.trail) := by
  rw [length_lines, toList_message, List.count_append, count_headline h, count_behindHeadline]
  omega

theorem causeBreaks_eq_zero (h : Arisen f) (htrail : ∀ visit ∈ f.trail, keyBreaks visit.step = 0) :
    causeBreaks f.cause = 0 := by
  cases h with
  | element path failedStep hvisit => exact htrail _ hvisit
  | _ => rfl

theorem length_lines_message_iff (h : Arisen f) :
    (lines f.message).length = 1 + f.trail.length ↔
      ∀ visit ∈ f.trail, keyBreaks visit.step = 0 := by
  rw [length_lines_message h, ← trailBreaks_eq_zero_iff]
  constructor
  · intro hlength
    omega
  · intro htrail
    rw [causeBreaks_eq_zero h ((trailBreaks_eq_zero_iff _).mp htrail), htrail, Nat.add_zero]

theorem lines_message (h : Arisen f) (htrail : ∀ visit ∈ f.trail, keyBreaks visit.step = 0) :
    lines f.message = f.headline.toList :: (trailLines 0 f.trail).map String.toList := by
  rw [lines, message, String.toList_intercalate]
  refine List.splitOn_intercalate '\n' ?_ (List.cons_ne_nil _ _)
  rw [List.map_cons, List.forall_mem_cons, List.forall_mem_map]
  constructor
  · rw [← List.count_eq_zero, count_headline h, causeBreaks_eq_zero h htrail]
  · intro line hline
    obtain ⟨i, hi⟩ := List.mem_iff_getElem?.mp hline
    rw [getElem?_trailLines, Option.map_eq_some_iff] at hi
    obtain ⟨visit, hvisit, rfl⟩ := hi
    rw [← List.count_eq_zero, count_trailLine]
    exact htrail visit (List.mem_of_getElem? hvisit)

end Lines

section ReadBack

variable {f g : TraversalFault} {t u : List Visit} {i j : Nat}

theorem behindHeadline_cons (number : Nat) (visit : Visit) (trail : List Visit) :
    behindHeadline number (visit :: trail) =
      '\n' :: ("  ".toList ++ Decimal.natDigits number ++ ": ".toList) ++
        (visit.step.write ++ (" on ".toList ++
          (visit.value.kind.name.toList ++ behindHeadline (number + 1) trail))) := by
  rw [behindHeadline, trailLines, List.flatMap_cons, ← behindHeadline, toList_trailLine]
  simp only [List.cons_append, List.append_assoc]

theorem eq_of_append_behindHeadline {a b : List Char} (ha : '\n' ∉ a) (hb : '\n' ∉ b)
    (h : a ++ behindHeadline i t = b ++ behindHeadline j u) :
    a = b ∧ behindHeadline i t = behindHeadline j u := by
  have hfront : ∀ {c : List Char} (k : Nat) (trail : List Visit), '\n' ∉ c →
      (c ++ behindHeadline k trail).takeWhile (· != '\n') = c := by
    intro c k trail hc
    have hall : ∀ x ∈ c, (x != '\n') = true := by
      intro x hx
      rw [bne_iff_ne]
      rintro rfl
      exact hc hx
    rw [List.takeWhile_append_of_pos hall]
    cases trail with
    | nil => exact List.append_nil c
    | cons visit trail => exact List.append_nil c
  have hab : a = b := by
    rw [← hfront i t ha, h, hfront j u hb]
  subst hab
  exact ⟨rfl, List.append_cancel_left h⟩

theorem kindName_injective {k l : Kind} (h : k.name.toList = l.name.toList) : k = l := by
  have hname : ∀ k : Kind, Kind.ofName? k.name = some k := by
    intro k
    cases k <;> rfl
  rw [← Option.some.injEq, ← hname k, ← hname l, String.toList_inj.mp h]

theorem clear_dot_on (rest : List Char) : Grammar.Clear (· = '.') (" on ".toList ++ rest) :=
  Grammar.clear_cons_iff.mpr (by decide)

theorem clear_dot_behindStep (f : TraversalFault) (rest : List Char) :
    Grammar.Clear (· = '.') (behindStep f ++ rest) := by
  rw [behindStep, String.append_assoc, String.append_assoc, String.toList_append,
    List.append_assoc]
  exact Grammar.clear_cons_iff.mpr (by decide)

theorem shown_of_behindHeadline (h : behindHeadline i t = behindHeadline i u) :
    t.map shown = u.map shown := by
  induction t generalizing i u with
  | nil =>
      cases u with
      | nil => rfl
      | cons visit u => cases h
  | cons visit t ih =>
      cases u with
      | nil => cases h
      | cons other u =>
          rw [behindHeadline_cons, behindHeadline_cons] at h
          obtain ⟨hstep, hrest⟩ := eq_of_write_append (clear_dot_on _) (clear_dot_on _)
            (List.append_cancel_left h)
          obtain ⟨hname, hmore⟩ := eq_of_append_behindHeadline (newline_notMem_kindName _)
            (newline_notMem_kindName _) (List.append_cancel_left hrest)
          have hshown : shown visit = shown other :=
            Prod.ext hstep (kindName_injective hname)
          rw [List.map_cons, List.map_cons, hshown, ih hmore]

theorem head?_headline (hcause : ∀ step, f.cause ≠ .noElement step) :
    f.headline.toList.head? = some 'u' ∨ f.headline.toList.head? = some 'm' := by
  cases h : f.cause with
  | wrongType wanted actual => exact Or.inl (by simp [headline, summary, h])
  | missingValue => exact Or.inr (by simp [headline, summary, h])
  | noElement step => exact absurd h (hcause step)

theorem exists_noElement_of_message {step : Step} (hf : f.cause = .noElement step)
    (h : f.message = g.message) : ∃ other, g.cause = .noElement other := by
  by_contra hnone
  -- headlines that name no step begin with another letter
  have hhead : g.message.toList.head? = some 'i' := by
    rw [← h, toList_message, headline_of_noElement hf]
    rfl
  rw [toList_message, List.head?_append] at hhead
  rcases head?_headline fun other hother => hnone ⟨other, hother⟩ with hg | hg
  · rw [hg] at hhead
    cases hhead
  · rw [hg] at hhead
    cases hhead

theorem behindHeadline_of_message (hf : Arisen f) (hg : Arisen g) (h : f.message = g.message) :
    behindHeadline 0 f.trail = behindHeadline 0 g.trail := by
  have hchars := congrArg String.toList h
  rw [toList_message, toList_message] at hchars
  by_cases hstep : ∃ step, f.cause = .noElement step
  · -- the first line break may be one of the key, so the step is read back first
    obtain ⟨step, hcause⟩ := hstep
    obtain ⟨other, hother⟩ := exists_noElement_of_message hcause h
    rw [headline_of_noElement hcause, headline_of_noElement hother] at hchars
    simp only [List.append_assoc, List.append_cancel_left_eq] at hchars
    obtain ⟨-, hrest⟩ := eq_of_write_append (clear_dot_behindStep f _) (clear_dot_behindStep g _)
      hchars
    exact (eq_of_append_behindHeadline (newline_notMem_behindStep f)
      (newline_notMem_behindStep g) hrest).2
  · have hfcause : ∀ step, f.cause ≠ .noElement step := fun step hcause => hstep ⟨step, hcause⟩
    have hgcause : ∀ step, g.cause ≠ .noElement step :=
      fun step hcause => hstep (exists_noElement_of_message hcause h.symm)
    exact (eq_of_append_behindHeadline (newline_notMem_headline hf hfcause)
      (newline_notMem_headline hg hgcause) hchars).2

end ReadBack

theorem exists_fault_of_valueAt {r : Reader} {path : PathArgument} {expected : Expected}
    {substitute : Value} {s : Session} {f : TraversalFault}
    (h : outcome (r.valueAt path expected substitute) s = .error (.traversal f)) :
    ∃ p, fetch r.root p expected substitute = .error (.traversal f) := by
  rw [outcome_valueAt_argument] at h
  cases hpath : outcome (Session.asPath path) s with
  | error e =>
      rw [hpath] at h
      cases h
      exact absurd hpath (Lenient.asPath_ne_traversal f)
  | ok p =>
      simp only [hpath, outcome_valueAt] at h
      obtain ⟨e, hfetch, he⟩ := Result.mapError_eq_error_iff.mp h
      cases e with
      | tooLarge => cases he
      | traversal g =>
          cases he
          exact ⟨p, hfetch⟩

/-- The message has a line for its headline and one for each visit, and one more for every
line break in a key of the trail, and again in the key that the headline names. In any case
it tells the steps of the trail and the kinds of the values. -/
theorem message_has_a_line_more_for_each_break {r : Reader} {path : PathArgument}
    {expected : Expected} {substitute : Value} {s : Session} {f : TraversalFault}
    (h : outcome (r.valueAt path expected substitute) s = .error (.traversal f)) :
    (lines f.message).length =
        1 + f.trail.length + (causeBreaks f.cause + trailBreaks f.trail) ∧
      ((lines f.message).length = 1 + f.trail.length ↔
        ∀ visit ∈ f.trail, keyBreaks visit.step = 0) ∧
      ((∀ visit ∈ f.trail, keyBreaks visit.step = 0) →
        ∀ i, (lines f.message)[i + 1]? =
          f.trail[i]?.map fun visit => (trailLine i visit).toList) ∧
      ∀ (r' : Reader) (path' : PathArgument) (expected' : Expected) (substitute' : Value)
        (s' : Session) (g : TraversalFault),
        outcome (r'.valueAt path' expected' substitute') s' = .error (.traversal g) →
        g.message = f.message → g.trail.map shown = f.trail.map shown := by
  obtain ⟨p, hfetch⟩ := exists_fault_of_valueAt h
  have hf := arisen_of_fetch hfetch
  refine ⟨length_lines_message hf, length_lines_message_iff hf, ?_, ?_⟩
  · intro htrail i
    rw [lines_message hf htrail, List.getElem?_cons_succ, List.getElem?_map, getElem?_trailLines,
      Nat.zero_add, Option.map_map]
    rfl
  · intro r' path' expected' substitute' s' g hg hmessage
    obtain ⟨q, hother⟩ := exists_fault_of_valueAt hg
    exact shown_of_behindHeadline
      (behindHeadline_of_message (arisen_of_fetch hother) hf hmessage)

theorem message_has_a_line_more_for_each_break_in_two_visits :
    let two : Index := ⟨2, by decide, by decide⟩
    let r : Reader := ⟨.map [("a\n", .list [.null]), ("b", .str "c")]⟩
    let broken : PathArgument := .path ⟨[.key "a\n", .index two]⟩
    let whole : PathArgument := .path ⟨[.key "b", .here, .key "it's"]⟩
    (∃ f, outcome (r.valueAt broken .anything .missing) {} = .error (.traversal f) ∧
      f.trail.length = 2 ∧ (lines f.message).length = 4) ∧
      ∃ f, outcome (r.valueAt whole .anything .missing) {} = .error (.traversal f) ∧
        f.trail.length = 3 ∧ (lines f.message).length = 4 ∧
        (lines f.message)[3]? = some "  2: ['it`'s'] on string".toList := by
  intro two r broken whole
  constructor
  · refine ⟨_, rfl, rfl, ?_⟩
    obtain ⟨hlength, -⟩ := message_has_a_line_more_for_each_break
      (show outcome (r.valueAt broken .anything .missing) {} = .error (.traversal _) from rfl)
    rw [hlength]
    rfl
  · refine ⟨_, rfl, rfl, ?_⟩
    obtain ⟨-, hiff, hlines, -⟩ := message_has_a_line_more_for_each_break
      (show outcome (r.valueAt whole .anything .missing) {} = .error (.traversal _) from rfl)
    have hunbroken : ∀ visit ∈ [Visit.mk (.key "b") r.root, ⟨.here, .str "c"⟩,
        ⟨.key "it's", .str "c"⟩], keyBreaks visit.step = 0 := by
      decide
    refine ⟨hiff.mpr hunbroken, ?_⟩
    rw [hlines hunbroken]
    decide

/-- The key of the only visit looks like the line of another one. -/
theorem newline_in_key_imitates_visit :
    let r : Reader := ⟨.map []⟩
    let p : Path := ⟨[.key "\n  1: [self] on map\n"]⟩
    ∃ f, outcome (r.valueAt (.path p) .anything .missing) {} = .error (.traversal f) ∧
      f.trail.length = 1 ∧ (lines f.message).length = 6 ∧
      (lines f.message)[4]? = some (trailLine 1 ⟨.here, .map []⟩).toList := by
  intro r p
  let b : Blocked := ⟨[], ⟨.key "\n  1: [self] on map\n", .map []⟩, .noElement⟩
  refine ⟨.ofBlocked p b, rfl, rfl, ?_, ?_⟩
  · exact (length_lines_message (arisen_ofBlocked p b)).trans rfl
  · rw [lines, toList_message, headline_of_noElement rfl]
    decide +kernel

end TreePath.Message
