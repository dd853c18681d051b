import TreePath.Proofs.Reader.Access
import TreePath.Proofs.Value.Equality

namespace TreePath.Trail

open TreePath.Access
open TreePath.Composition
open TreePath.Result
open TreePath.Session (outcome)

/-- The step goes into containers of another kind than the value. -/
inductive Unfit : Step → Value → Kind → Prop where
  | index {i : Index} {v : Value} (h : v.kind ≠ .array) : Unfit (.index i) v .array
  | key {name : String} {v : Value} (h : v.kind ≠ .map) : Unfit (.key name) v .map

/-- The value is such a container, but without the element that the step names. -/
inductive Lacks : Step → Value → Prop where
  | index {i : Index} {v : Value} {items : List Value} (hv : v.items? = some items)
      (h : i.val < -(items.length : Int) ∨ (items.length : Int) ≤ i.val) :
      Lacks (.index i) v
  | key {name : String} {v : Value} {entries : List (String × Value)}
      (hv : v.entries? = some entries) (h : name ∉ entries.map (·.1)) :
      Lacks (.key name) v

section Step

variable {step : Step} {v : Value}

theorem Unfit.ne_kind {kind : Kind} (h : Unfit step v kind) : kind ≠ v.kind := by
  rcases h with h | h
  · exact h.symm
  · exact h.symm

theorem items?_eq_none_iff : v.items? = none ↔ v.kind ≠ .array := by
  rw [ne_eq, ← Value.isArray_eq_true_iff, Value.isArray, Bool.not_eq_true,
    Option.isSome_eq_false_iff, Option.isNone_iff_eq_none]

theorem entries?_eq_none_iff : v.entries? = none ↔ v.kind ≠ .map := by
  rw [ne_eq, ← Value.isMap_eq_true_iff, Value.isMap, Bool.not_eq_true,
    Option.isSome_eq_false_iff, Option.isNone_iff_eq_none]

theorem apply_eq_wrongKind_iff {expected actual : Kind} :
    step.apply v = .error (.wrongKind expected actual) ↔
      Unfit step v expected ∧ actual = v.kind := by
  constructor
  · intro h
    unfold Step.apply at h
    split at h
    · cases h
    · split at h
      · rename_i hitems
        cases h
        exact ⟨.index (items?_eq_none_iff.mp hitems), rfl⟩
      · split at h <;> cases h
    · split at h
      · rename_i hentries
        cases h
        exact ⟨.key (entries?_eq_none_iff.mp hentries), rfl⟩
      · split at h <;> cases h
  · rintro ⟨h, rfl⟩
    rcases h with h | h
    · rw [Step.apply, items?_eq_none_iff.mpr h]
    · rw [Step.apply, entries?_eq_none_iff.mpr h]

theorem element?_eq_none_iff_outside {items : List Value} {i : Int} :
    element? items i = none ↔
      i < -(items.length : Int) ∨ (items.length : Int) ≤ i := by
  rw [element?_eq_none_iff, absolute?_eq_none_iff (Int.natCast_nonneg _)]

theorem apply_eq_noElement_iff : step.apply v = .error .noElement ↔ Lacks step v := by
  constructor
  · intro h
    unfold Step.apply at h
    split at h
    · cases h
    · split at h
      · cases h
      · rename_i items hitems
        split at h
        · cases h
        · rename_i hnone
          exact .index hitems (element?_eq_none_iff_outside.mp hnone)
    · split at h
      · cases h
      · rename_i entries hentries
        split at h
        · cases h
        · rename_i hnone
          exact .key hentries (Value.lookup?_eq_none_iff.mp hnone)
  · intro h
    rcases h with ⟨hv, h⟩ | ⟨hv, h⟩
    · simp only [Step.apply, hv, element?_eq_none_iff_outside.mpr h]
    · simp only [Step.apply, hv, Value.lookup?_eq_none_iff.mpr h]

theorem Unfit.not_lacks {kind : Kind} (h : Unfit step v kind) : ¬ Lacks step v := by
  intro hlacks
  have hkind := apply_eq_wrongKind_iff.mpr ⟨h, rfl⟩
  rw [apply_eq_noElement_iff.mpr hlacks] at hkind
  cases hkind

theorem apply_index_of_inside {i : Index} {items : List Value}
    (hv : v.items? = some items) (hlow : -(items.length : Int) ≤ i.val)
    (hhigh : i.val < items.length) :
    ∃ w, items[(i.val % items.length).toNat]? = some w ∧
      (Step.index i).apply v = .ok w := by
  have hplace : absolute? i.val items.length = some (i.val % items.length) := by
    unfold absolute?
    by_cases hneg : i.val < 0
    · have hmod : i.val % items.length = items.length + i.val := by
        rw [← Int.add_emod_left, Int.emod_eq_of_lt (by omega) (by omega)]
      simp only [hneg, ↓reduceIte, hmod]
      rw [if_pos (by omega)]
    · rw [Int.emod_eq_of_lt (by omega) hhigh]
      simp only [hneg, ↓reduceIte]
      rw [if_pos (by omega)]
  have hbounds := bounds_of_absolute? hplace
  have hlt : (i.val % items.length).toNat < items.length := by omega
  refine ⟨items[(i.val % items.length).toNat], List.getElem?_eq_getElem hlt, ?_⟩
  simp only [Step.apply, hv, element?, hplace, Option.bind_some,
    List.getElem?_eq_getElem hlt]

end Step

section Walk

variable {v w : Value} {p q : List Step} {trail : List Visit} {b : Blocked}

theorem exists_front_of_walk (h : walk v (p ++ q) = .ok (w, trail)) :
    ∃ u, walk v p = .ok (u, trail.take p.length) ∧
      walk u q = .ok (w, trail.drop p.length) := by
  rw [walk_append] at h
  cases hp : walk v p with
  | error b =>
      rw [hp] at h
      cases h
  | ok r =>
      obtain ⟨u, before⟩ := r
      simp only [hp] at h
      cases hq : walk u q with
      | error b =>
          rw [hq] at h
          cases h
      | ok r =>
          rw [hq] at h
          cases h
          rw [← length_trail_of_walk hp, List.take_left, List.drop_left]
          exact ⟨u, rfl, hq⟩

theorem front_of_blocked (h : walk v p = .error b) :
    walk v (p.take b.failedStep) = .ok (b.last.value, b.before) ∧
      p[b.failedStep]? = some b.last.step ∧
      b.last.step.apply b.last.value = .error b.obstacle := by
  induction p generalizing v b with
  | nil => cases h
  | cons s rest ih =>
      cases hs : s.apply v with
      | error obstacle =>
          rw [walk_cons_of_error hs] at h
          cases h
          exact ⟨rfl, rfl, hs⟩
      | ok u =>
          rw [walk_cons_of_ok hs] at h
          cases hrest : walk u rest with
          | ok r =>
              rw [hrest] at h
              cases h
          | error inner =>
              rw [hrest] at h
              cases h
              obtain ⟨hfront, hstep, hobstacle⟩ := ih hrest
              exact ⟨walk_cons_eq_ok_iff.mpr ⟨u, _, hs, hfront, rfl⟩, hstep, hobstacle⟩

end Walk

/-- The first steps of a path. -/
def front (p : Path) (k : Nat) : Path :=
  ⟨p.steps.take k⟩

/-- Each entry of the trail is the step at its place in the path, with the value
that the steps before it resolve to. -/
def Records (root : Value) (p : Path) (trail : List Visit) : Prop :=
  ∀ (i : Nat) (visit : Visit), trail[i]? = some visit →
    p.steps[i]? = some visit.step ∧
      resolve root (front p i) = .ok (visit.value, trail.take i)

section Resolve

variable {root v : Value} {p : Path} {trail : List Visit}

theorem records_of_resolve (h : resolve root p = .ok (v, trail)) :
    Records root p trail := by
  rw [resolve_eq_ok_iff] at h
  intro i visit hvisit
  have hlength := length_trail_of_walk h
  have hi : i < p.steps.length := by
    rw [← hlength]
    exact (List.getElem?_eq_some_iff.mp hvisit).1
  have hsplit : p.steps = p.steps.take i ++ p.steps[i] :: p.steps.drop (i + 1) := by
    rw [← List.drop_eq_getElem_cons hi, List.take_append_drop]
  rw [hsplit] at h
  obtain ⟨u, hfront, hrest⟩ := exists_front_of_walk h
  rw [List.length_take_of_le (Nat.le_of_lt hi)] at hfront hrest
  have hfirst : (trail.drop i).head? = some visit := by
    rw [List.head?_drop, hvisit]
  obtain ⟨w, more, -, -, hdrop⟩ := walk_cons_eq_ok_iff.mp hrest
  rw [← hdrop, List.head?_cons, Option.some.injEq] at hfirst
  subst hfirst
  exact ⟨List.getElem?_eq_getElem hi, resolve_eq_ok_iff.mpr hfront⟩

theorem front_front {k i : Nat} (h : i ≤ k) : front (front p k) i = front p i := by
  simp only [front, List.take_take, Nat.min_eq_left h]

theorem Records.concat {k : Nat} {visit : Visit}
    (hfront : resolve root (front p k) = .ok (visit.value, trail))
    (hk : trail.length = k) (hstep : p.steps[k]? = some visit.step) :
    Records root p (trail ++ [visit]) := by
  intro i other hother
  rcases Nat.lt_trichotomy i k with hi | rfl | hi
  · rw [List.getElem?_append_left (by omega)] at hother
    obtain ⟨hsame, hvalue⟩ := records_of_resolve hfront i other hother
    rw [front_front (Nat.le_of_lt hi)] at hvalue
    rw [List.take_append_of_le_length (by omega)]
    refine ⟨?_, hvalue⟩
    rwa [front, List.getElem?_take_of_lt hi] at hsame
  · rw [← hk, List.getElem?_concat_length, Option.some.injEq] at hother
    subst hother
    rw [← hk, List.take_left, hk]
    exact ⟨hstep, hfront⟩
  · rw [List.getElem?_eq_none (by simp; omega)] at hother
    cases hother

theorem front_succ {k : Nat} {step : Step} (h : p.steps[k]? = some step) :
    front p (k + 1) = front p k ++ ⟨[step]⟩ := by
  show Path.mk (p.steps.take (k + 1)) = ⟨p.steps.take k ++ [step]⟩
  rw [List.take_add_one, h, Option.toList_some]

theorem resolve_front_succ {k : Nat} {step : Step} {w : Value}
    (hfront : resolve root (front p k) = .ok (v, trail))
    (hstep : p.steps[k]? = some step) (happly : step.apply v = .ok w) :
    resolve root (front p (k + 1)) = .ok (w, trail ++ [⟨step, v⟩]) := by
  rw [front_succ hstep]
  refine resolve_append_of_ok hfront ?_
  rw [resolve_eq_ok_iff, walk_cons_of_ok happly]
  rfl

theorem exists_fault_of_front_succ {k : Nat} {step : Step} {obstacle : Obstacle}
    (hfront : resolve root (front p k) = .ok (v, trail))
    (hstep : p.steps[k]? = some step) (happly : step.apply v = .error obstacle) :
    ∃ g, resolve root (front p (k + 1)) = .error g := by
  have hlast : resolve v ⟨[step]⟩ =
      .error (.ofBlocked ⟨[step]⟩ ⟨[], ⟨step, v⟩, obstacle⟩) :=
    mapError_eq_error_iff.mpr ⟨_, walk_cons_of_error happly [], rfl⟩
  obtain ⟨n, -, hwhole⟩ := resolve_append_of_ok_of_error hfront hlast
  rw [front_succ hstep]
  exact ⟨_, hwhole⟩

end Resolve

/-- What a fault says of the visit that blocked the walk. -/
inductive Blames (visit : Visit) : TraversalCause → Prop where
  | wrongType {kind : Kind} (h : Unfit visit.step visit.value kind) :
      Blames visit (.wrongType (.kind kind) visit.value.kind)
  | noElement (h : Lacks visit.step visit.value) : Blames visit (.noElement visit.step)

section Blame

variable {visit : Visit} {cause : TraversalCause}

theorem blames_of_obstacle {b : Blocked} (p : Path)
    (h : b.last.step.apply b.last.value = .error b.obstacle) :
    Blames b.last (TraversalFault.ofBlocked p b).cause := by
  obtain ⟨before, last, obstacle⟩ := b
  cases obstacle with
  | wrongKind expected actual =>
      obtain ⟨hunfit, hactual⟩ := apply_eq_wrongKind_iff.mp h
      rw [hactual]
      exact .wrongType hunfit
  | noElement => exact .noElement (apply_eq_noElement_iff.mp h)

theorem Blames.wrongType_iff (h : Blames visit cause) :
    (∃ wanted actual, cause = .wrongType wanted actual) ↔
      ∃ kind, Unfit visit.step visit.value kind := by
  rcases h with hunfit | hlacks
  · exact ⟨fun _ => ⟨_, hunfit⟩, fun _ => ⟨_, _, rfl⟩⟩
  · constructor
    · rintro ⟨wanted, actual, ⟨⟩⟩
    · rintro ⟨kind, hunfit⟩
      exact absurd hlacks hunfit.not_lacks

theorem Blames.noElement_iff (h : Blames visit cause) :
    (∃ step, cause = .noElement step) ↔ Lacks visit.step visit.value := by
  rcases h with hunfit | hlacks
  · refine iff_of_false ?_ hunfit.not_lacks
    rintro ⟨step, ⟨⟩⟩
  · exact ⟨fun _ => hlacks, fun _ => ⟨_, rfl⟩⟩

theorem element?_natCast {α : Type} (xs : List α) (k : Nat) :
    element? xs (k : Int) = xs[k]? := by
  have hsign : ¬ (k : Int) < 0 := by omega
  simp only [element?, absolute?, hsign, ↓reduceIte]
  split
  · rfl
  · rw [List.getElem?_eq_none (by omega)]
    rfl

/-- The step that a fault names is the one that its own number finds in its own
trail, so that the fault can be stated from these alone. -/
theorem ofNoElement_of_blames {f : TraversalFault} {k : Nat} {step : Step}
    (hblames : Blames visit f.cause) (hcause : f.cause = .noElement step)
    (hnumber : f.failedStep = some (k : Int)) (hvisit : f.trail[k]? = some visit)
    (hword : (k : Int) ≤ greatestWord) :
    TraversalFault.ofNoElement f.path f.trail f.failedStep = .ok f := by
  obtain ⟨path, trail, failedStep, cause⟩ := f
  subst hcause hnumber
  have hplace : elementAt trail (k : Int) = .ok visit := by
    have hlow : leastWord ≤ (k : Int) := by
      simp only [leastWord]
      omega
    rw [elementAt, if_pos ⟨hlow, hword⟩, element?_natCast, hvisit]
  cases hblames
  simp only [TraversalFault.ofNoElement, hplace]

end Blame

theorem fault_of_value_check {root v : Value} {p : Path} {trail : List Visit}
    {expected : Expected} {substitute : Value} {f : TraversalFault} {wanted : Wanted}
    {actual : Kind} (hp : resolve root p = .ok (v, trail))
    (hf : fetch root p expected substitute = .error (.traversal f))
    (hcause : f.cause = .wrongType wanted actual) :
    f.failedStep = none ∧ f.trail = trail ∧ wanted = .value expected ∧
      actual = (substituteNull substitute v).kind := by
  by_cases hv : v = .missing
  · subst hv
    rw [fetch_of_missing hp] at hf
    cases hf
    cases hcause
  · rw [fetch_of_present hp hv, handOut] at hf
    split at hf
    · cases hf
    · cases hf
    · cases hf
      cases hcause
      exact ⟨rfl, rfl, rfl, rfl⟩

/-- The trail is a faithful record of the walk. A blocked one has led to the value of its
last visit, which is of another kind than the step needs or lacks the element that it names.
A value that is not as expected is a fault of no step, with the whole trail. -/
theorem trail_records_walk (root : Value) (p : Path) (s : Session) :
    (∀ v trail, outcome (Session.resolve root p) s = .ok (v, trail) →
      trail.length = p.length ∧ Records root p trail) ∧
    (∀ e, outcome (Session.resolve root p) s = .error e →
      ∃ (f : TraversalFault) (k : Nat) (last : Visit), e = .traversal f ∧
        f.path = p ∧ f.failedStep = some (k : Int) ∧ f.trail.length = k + 1 ∧
        f.trail[k]? = some last ∧ Records root p f.trail ∧
        (∃ r, resolve root (front p k) = .ok r) ∧
        (∃ g, resolve root (front p (k + 1)) = .error g) ∧
        Blames last f.cause ∧
        ((∃ wanted actual, f.cause = .wrongType wanted actual) ↔
          ∃ kind, Unfit last.step last.value kind) ∧
        (∀ kind actual, f.cause = .wrongType (.kind kind) actual → kind ≠ actual) ∧
        ((∃ step, f.cause = .noElement step) ↔ Lacks last.step last.value) ∧
        ∀ step, f.cause = .noElement step → (k : Int) ≤ greatestWord →
          TraversalFault.ofNoElement p f.trail f.failedStep = .ok f) ∧
    (∀ (k : Nat) (i : Index) (v : Value) (trail : List Visit) (items : List Value),
      resolve root (front p k) = .ok (v, trail) → p.steps[k]? = some (.index i) →
      v.items? = some items → -(items.length : Int) ≤ i.val →
      i.val < items.length →
      ∃ w, items[(i.val % items.length).toNat]? = some w ∧
        resolve root (front p (k + 1)) = .ok (w, trail ++ [⟨.index i, v⟩])) ∧
    ∀ (v : Value) (trail : List Visit) (expected : Expected) (substitute : Value)
      (f : TraversalFault) (wanted : Wanted) (actual : Kind),
      outcome (Session.resolve root p) s = .ok (v, trail) →
      outcome (Reader.valueAt ⟨root⟩ (.path p) expected substitute) s =
        .error (.traversal f) →
      f.cause = .wrongType wanted actual →
      f.failedStep = none ∧ f.trail = trail ∧ wanted = .value expected ∧
        actual = (substituteNull substitute v).kind := by
  simp only [outcome_resolve, mapError_eq_ok_iff]
  refine ⟨?_, ?_, ?_, ?_⟩
  · intro v trail h
    exact ⟨length_trail_of_walk (resolve_eq_ok_iff.mp h), records_of_resolve h⟩
  · intro e he
    obtain ⟨f, hf, rfl⟩ := mapError_eq_error_iff.mp he
    obtain ⟨b, hb, rfl⟩ := mapError_eq_error_iff.mp hf
    obtain ⟨hwalk, hstep, hobstacle⟩ := front_of_blocked hb
    have hfront : resolve root (front p b.failedStep) = .ok (b.last.value, b.before) :=
      resolve_eq_ok_iff.mpr hwalk
    have hlast : b.trail[b.failedStep]? = some b.last := List.getElem?_concat_length
    have hblames := blames_of_obstacle p hobstacle
    refine ⟨_, b.failedStep, b.last, rfl, rfl, rfl, List.length_append, hlast,
      Records.concat hfront rfl hstep, ⟨_, hfront⟩,
      exists_fault_of_front_succ hfront hstep hobstacle, hblames,
      hblames.wrongType_iff, ?_, hblames.noElement_iff, ?_⟩
    · intro kind actual hcause
      rw [hcause] at hblames
      cases hblames with
      | wrongType hunfit => exact hunfit.ne_kind
    · intro step hcause hword
      exact ofNoElement_of_blames hblames hcause rfl hlast hword
  · intro k i v trail items hfront hstep hitems hlow hhigh
    obtain ⟨w, hw, happly⟩ := apply_index_of_inside hitems hlow hhigh
    exact ⟨w, hw, resolve_front_succ hfront hstep happly⟩
  · intro v trail expected substitute f wanted actual hp hf hcause
    rw [outcome_valueAt] at hf
    obtain ⟨e, hfetch, he⟩ := mapError_eq_error_iff.mp hf
    cases e with
    | tooLarge => cases he
    | traversal g =>
        cases he
        exact fault_of_value_check hp hfetch hcause

theorem trail_records_walk_past_text :
    let items : List Value := [.int 7, .str "x"]
    let root : Value := .map [("a", .list items)]
    let last : Index := ⟨-1, by decide, by decide⟩
    let next : Index := ⟨2, by decide, by decide⟩
    let p : Path := ⟨[.key "a", .here, .index last]⟩
    (∃ trail, outcome (Session.resolve root p) {} = .ok (.str "x", trail) ∧
      trail.length = 3 ∧ Records root p trail ∧
      ∃ f, outcome (Reader.valueAt ⟨root⟩ (.path p) (.type .int) .missing) {} =
          .error (.traversal f) ∧ f.failedStep = none ∧ f.trail = trail) ∧
      (∃ w, items[(last.val % items.length).toNat]? = some w ∧
        resolve root p = .ok (w, [⟨.key "a", root⟩, ⟨.here, .list items⟩] ++
          [⟨.index last, .list items⟩])) ∧
      (∃ f, outcome (Session.resolve root (p ++ ⟨[.index next]⟩)) {} =
          .error (.traversal f) ∧ f.failedStep = some 3 ∧ f.trail.length = 4 ∧
        Records root (p ++ ⟨[.index next]⟩) f.trail ∧
        Blames ⟨.index next, .str "x"⟩ f.cause) ∧
      ∃ f, outcome (Session.resolve root ⟨[.key "a", .index next]⟩) {} =
          .error (.traversal f) ∧ Blames ⟨.index next, .list items⟩ f.cause ∧
        TraversalFault.ofNoElement ⟨[.key "a", .index next]⟩ f.trail f.failedStep =
          .ok f := by
  intro items root last next p
  obtain ⟨hok, -, hindex, hcheck⟩ := trail_records_walk root p {}
  refine ⟨?_, ?_, ?_, ?_⟩
  · obtain ⟨hlength, hrecords⟩ := hok _ _ rfl
    obtain ⟨hstep, htrail, -, -⟩ := hcheck _ _ (.type .int) .missing _ _ _ rfl rfl rfl
    exact ⟨_, rfl, hlength, hrecords, _, rfl, hstep, htrail⟩
  · exact hindex 2 last _ _ items rfl rfl rfl (by decide) (by decide)
  · obtain ⟨f, k, visit, hf, -, hk, hlength, hvisit, hrecords, -, -, hblames, -⟩ :=
      (trail_records_walk root (p ++ ⟨[.index next]⟩) {}).2.1 _ rfl
    cases hf
    cases hk
    cases hvisit
    exact ⟨_, rfl, rfl, hlength, hrecords, hblames⟩
  · obtain ⟨f, k, visit, hf, -, hk, -, hvisit, -, -, -, hblames, -, -, -, hformat⟩ :=
      (trail_records_walk root ⟨[.key "a", .index next]⟩ {}).2.1 _ rfl
    cases hf
    cases hk
    cases hvisit
    exact ⟨_, rfl, hblames, hformat _ rfl (by decide)⟩

end TreePath.Trail
