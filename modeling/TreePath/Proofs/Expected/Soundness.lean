import TreePath.Proofs.Expected.Coercion

namespace TreePath

open TreePath.Decimal

namespace ValueType

/-- Whether somebody who wants the type is content with the value: a truth value is no
number, and a whole number may stand for a float. -/
def takes : ValueType → Value → Bool
  | any, _ => true
  | int, .bool _ => false
  | float, .bool _ => false
  | float, .int _ => true
  | t, v => t.admits v

/-- What the type hands the value out as. -/
def hold : ValueType → Value → Value
  | float, .int n => ((floatOfInt? n).map Value.float).getD (.int n)
  | _, v => v

variable {t : ValueType} {v : Value}

theorem takes_bool_iff {b : Bool} :
    t.takes (.bool b) = true ↔
      t = any ∨ t = bool ∨ ∃ c, t = other c ∧ c.admits (.bool b) = true := by
  cases t <;> simp [takes, admits]

theorem takes_int_iff {n : Int} :
    t.takes (.int n) = true ↔
      t = any ∨ t = int ∨ t = float ∨ ∃ c, t = other c ∧ c.admits (.int n) = true := by
  cases t <;> simp [takes, admits]

theorem takes_eq_admits (hbool : ∀ b, v ≠ .bool b) (hint : ∀ n, v ≠ .int n) (t : ValueType) :
    t.takes v = t.admits v := by
  cases v with
  | bool b => exact absurd rfl (hbool b)
  | int n => exact absurd rfl (hint n)
  | _ => cases t <;> rfl

theorem hold_cases (t : ValueType) (v : Value) :
    t.hold v = v ∨ ∃ n, t = float ∧ v = .int n := by
  cases v with
  | int n =>
      cases t with
      | float => exact Or.inr ⟨n, rfl, rfl⟩
      | _ => exact Or.inl rfl
  | _ => exact Or.inl (by cases t <;> rfl)

theorem hold_of_not_int (h : ∀ n, v ≠ .int n) (t : ValueType) : t.hold v = v := by
  rcases hold_cases t v with hsame | ⟨n, -, hn⟩
  · exact hsame
  · exact absurd hn (h n)

theorem exists_hold_float {n : Int} (h : n.natAbs < floatLimit) :
    ∃ x, floatOfInt? n = some x ∧ float.hold (.int n) = .float x := by
  cases hx : floatOfInt? n with
  | none =>
      rw [floatOfInt?_eq_none_iff] at hx
      omega
  | some x => exact ⟨x, rfl, by rw [hold, hx]; rfl⟩

end ValueType

namespace Expected

mutual

/-- The types of the expectation in their order, at whatever depth they stand. -/
def types : Expected → List ValueType
  | type t => [t]
  | oneOf es => typesOfAll es

def typesOfAll : List Expected → List ValueType
  | [] => []
  | e :: rest => e.types ++ typesOfAll rest

end

/-- The expectation is a type, or every choice is one. -/
def Flat (e : Expected) : Prop :=
  ∀ c ∈ e.choices, ∃ t, c = type t

/-- The value is no whole number that is too large for a float, if the expectation has
floats in it. -/
def WithinFloats (e : Expected) (v : Value) : Prop :=
  .float ∈ e.types → ∀ n, v = .int n → n.natAbs < floatLimit

/-- Floats come before whole numbers, before what takes everything, and before every
class of its own that has the whole number among its instances. -/
def FloatFirst (e : Expected) (n : Int) : Prop :=
  ∃ before after, e.types = before ++ .float :: after ∧ .int ∉ before ∧ .any ∉ before ∧
    ∀ c, .other c ∈ before → c.admits (.int n) = false

variable {e : Expected} {v : Value}

theorem typesOfAll_of_flat {es : List Expected} (h : ∀ c ∈ es, ∃ t, c = type t) :
    es = (typesOfAll es).map type := by
  induction es with
  | nil => rfl
  | cons c rest ih =>
      obtain ⟨t, rfl⟩ := h c List.mem_cons_self
      have hrest := ih fun c' hc' => h c' (List.mem_cons_of_mem _ hc')
      rw [typesOfAll, types, List.singleton_append, List.map_cons, ← hrest]

theorem Flat.choices_eq (h : e.Flat) : e.choices = e.types.map type := by
  cases e with
  | type t => rfl
  | oneOf es => exact typesOfAll_of_flat h

theorem fit?_type {t : ValueType}
    (h : t = .float → ∀ n, v = .int n → n.natAbs < floatLimit) :
    fit? v (type t) = .ok (if t.takes v then some (t.hold v) else none) := by
  cases v with
  | int n =>
      cases t with
      | float =>
          obtain ⟨x, hx, hhold⟩ := ValueType.exists_hold_float (h rfl n rfl)
          rw [fit?_int_float, hx, hhold]
          rfl
      | _ => rfl
  | _ => cases t <;> rfl

/-- The first type that takes the value decides. -/
theorem fitFirst?_types {ts : List ValueType}
    (h : .float ∈ ts → ∀ n, v = .int n → n.natAbs < floatLimit) :
    fitFirst? v (ts.map type) = .ok ((ts.find? (·.takes v)).map (·.hold v)) := by
  induction ts with
  | nil => rfl
  | cons t ts ih =>
      have hfit : fit? v (type t) = .ok (if t.takes v then some (t.hold v) else none) :=
        fit?_type fun ht => h (ht ▸ List.mem_cons_self)
      rw [List.map_cons, fitFirst?, hfit, List.find?_cons]
      cases t.takes v with
      | true => rfl
      | false => exact ih fun hfloat => h (List.mem_cons_of_mem _ hfloat)

theorem coerce_of_flat (hflat : e.Flat) (hv : e.WithinFloats v) :
    e.coerce v = .ok ((e.types.find? (·.takes v)).isSome,
      ((e.types.find? (·.takes v)).map (·.hold v)).getD v) := by
  rw [coerce, coerce?, hflat.choices_eq, fitFirst?_types hv]
  simp only [Except.map, Option.isSome_map]

section Deciding

variable {t : ValueType}

theorem floatFirst_of_find? {n : Int}
    (h : e.types.find? (·.takes (.int n)) = some .float) : e.FloatFirst n := by
  obtain ⟨-, before, after, hsplit, hbefore⟩ := List.find?_eq_some_iff_append.mp h
  have hpassed : ∀ t ∈ before, ¬ t.takes (.int n) = true := by
    intro t ht
    simpa using hbefore t ht
  refine ⟨before, after, hsplit, fun hint => hpassed .int hint rfl,
    fun hany => hpassed .any hany rfl, ?_⟩
  intro c hc
  rw [← Bool.not_eq_true]
  exact hpassed (.other c) hc

theorem find?_of_floatFirst {n : Int} (h : e.FloatFirst n) :
    e.types.find? (·.takes (.int n)) = some .float := by
  obtain ⟨before, after, hsplit, hint, hany, hother⟩ := h
  rw [hsplit, List.find?_append]
  cases hfound : before.find? (·.takes (.int n)) with
  | none => rfl
  | some t =>
      have hmem := List.mem_of_find?_eq_some hfound
      have htakes := List.find?_some hfound
      rcases ValueType.takes_int_iff.mp htakes with rfl | rfl | rfl | ⟨c, rfl, hc⟩
      · exact absurd hmem hany
      · exact absurd hmem hint
      · rfl
      · exact absurd hc (Bool.eq_false_iff.mp (hother c hmem))

theorem hold_eq_self (h : e.types.find? (·.takes v) = some t)
    (hv : ∀ n, v = .int n → ¬ e.FloatFirst n) : t.hold v = v := by
  rcases ValueType.hold_cases t v with hsame | ⟨n, rfl, rfl⟩
  · exact hsame
  · exact absurd (floatFirst_of_find? h) (hv n rfl)

theorem exists_hold_of_floatFirst {n : Int} (h : e.types.find? (·.takes (.int n)) = some t)
    (hfirst : e.FloatFirst n) (hv : e.WithinFloats (.int n)) :
    ∃ x, floatOfInt? n = some x ∧ t.hold (.int n) = .float x := by
  obtain rfl : .float = t := Option.some.inj ((find?_of_floatFirst hfirst).symm.trans h)
  exact ValueType.exists_hold_float (hv (List.mem_of_find?_eq_some h) n rfl)

theorem coerce_of_find? (hflat : e.Flat) (hv : e.WithinFloats v)
    (h : e.types.find? (·.takes v) = some t) : e.coerce v = .ok (true, t.hold v) := by
  rw [coerce_of_flat hflat hv, h]
  rfl

theorem coerce_of_takes {r : Value} (hflat : e.Flat) (hr : ∀ n, r ≠ .int n)
    (ht : t ∈ e.types) (htakes : t.takes r = true) : e.coerce r = .ok (true, r) := by
  have hfound : (e.types.find? (·.takes r)).isSome = true :=
    List.find?_isSome.mpr ⟨t, ht, htakes⟩
  obtain ⟨u, hu⟩ := Option.isSome_iff_exists.mp hfound
  rw [coerce_of_find? hflat (fun _ n hn => absurd hn (hr n)) hu,
    ValueType.hold_of_not_int hr]

theorem coerce_hold (hflat : e.Flat) (hv : e.WithinFloats v)
    (h : e.types.find? (·.takes v) = some t) :
    (∃ u ∈ e.types, u.takes (t.hold v) = true) ∧
      e.coerce (t.hold v) = .ok (true, t.hold v) := by
  have ht := List.mem_of_find?_eq_some h
  rcases ValueType.hold_cases t v with hsame | ⟨n, rfl, rfl⟩
  · have htakes := List.find?_some h
    have hcoerce := coerce_of_find? hflat hv h
    rw [hsame] at hcoerce ⊢
    exact ⟨⟨t, ht, htakes⟩, hcoerce⟩
  · -- The float is not the value that was found by the search, so it is searched anew.
    obtain ⟨x, -, hx⟩ := ValueType.exists_hold_float (hv ht n rfl)
    have htakes : ValueType.float.takes (.float x) = true := rfl
    rw [hx]
    exact ⟨⟨.float, ht, htakes⟩, coerce_of_takes hflat nofun ht htakes⟩

end Deciding

theorem isSome_find?_of_same_types {e' : Expected}
    (h : ∀ t, t ∈ e'.types ↔ t ∈ e.types) (v : Value) :
    (e'.types.find? (·.takes v)).isSome = (e.types.find? (·.takes v)).isSome := by
  rw [Bool.eq_iff_iff, List.find?_isSome, List.find?_isSome]
  simp only [h]

theorem exists_mem_other_iff {ts : List ValueType} {p : ValueClass → Prop} :
    (∃ t, t ∈ ts ∧ ∃ c, t = .other c ∧ p c) ↔ ∃ c, .other c ∈ ts ∧ p c := by
  constructor
  · rintro ⟨_, ht, c, rfl, hc⟩
    exact ⟨c, ht, hc⟩
  · rintro ⟨c, ht, hc⟩
    exact ⟨.other c, ht, c, rfl, hc⟩

theorem exists_takes_bool_iff {b : Bool} :
    (∃ t ∈ e.types, t.takes (.bool b) = true) ↔
      .any ∈ e.types ∨ .bool ∈ e.types ∨
        ∃ c, .other c ∈ e.types ∧ c.admits (.bool b) = true := by
  simp only [ValueType.takes_bool_iff, and_or_left, exists_or, exists_eq_right,
    exists_mem_other_iff]

theorem exists_takes_int_iff {n : Int} :
    (∃ t ∈ e.types, t.takes (.int n) = true) ↔
      .any ∈ e.types ∨ .int ∈ e.types ∨ .float ∈ e.types ∨
        ∃ c, .other c ∈ e.types ∧ c.admits (.int n) = true := by
  simp only [ValueType.takes_int_iff, and_or_left, exists_or, exists_eq_right,
    exists_mem_other_iff]

/-- The value is taken exactly if some type takes it, in whatever order the types come, and
what is handed out is taken again. Truth values are taken where they, all values or a class
with such instances are wanted; only whole numbers can become something else. -/
theorem coercion_is_sound {e : Expected} {v : Value} (hflat : e.Flat)
    (hv : e.WithinFloats v) :
    ∃ matched r, e.coerce v = .ok (matched, r) ∧
      (matched = true ↔ ∃ t ∈ e.types, t.takes v = true) ∧
      (∀ b, v = .bool b → (matched = true ↔ .any ∈ e.types ∨ .bool ∈ e.types ∨
        ∃ c, .other c ∈ e.types ∧ c.admits v = true)) ∧
      (∀ n, v = .int n → (matched = true ↔ .any ∈ e.types ∨ .int ∈ e.types ∨
        .float ∈ e.types ∨ ∃ c, .other c ∈ e.types ∧ c.admits v = true)) ∧
      ((∀ b, v ≠ .bool b) → (∀ n, v ≠ .int n) →
        (matched = true ↔ ∃ t ∈ e.types, t.admits v = true)) ∧
      (∀ e' : Expected, e'.Flat → (∀ t, t ∈ e'.types ↔ t ∈ e.types) →
        ∃ r', e'.coerce v = .ok (matched, r')) ∧
      (matched = false → r = v) ∧
      (matched = true →
        (∀ n, v = .int n → e.FloatFirst n →
          ∃ x, floatOfInt? n = some x ∧ r = .float x) ∧
        ((∀ n, v = .int n → ¬ e.FloatFirst n) → r = v) ∧
        (∃ t ∈ e.types, t.takes r = true) ∧ e.coerce r = .ok (true, r) ∧
        ∀ b, r = .bool b → .any ∈ e.types ∨ .bool ∈ e.types ∨
          ∃ c, .other c ∈ e.types ∧ c.admits r = true) := by
  refine ⟨_, _, coerce_of_flat hflat hv, List.find?_isSome, ?_, ?_, ?_, ?_, ?_, ?_⟩
  · rintro b rfl
    exact List.find?_isSome.trans exists_takes_bool_iff
  · rintro n rfl
    exact List.find?_isSome.trans exists_takes_int_iff
  · intro hbool hint
    simp only [List.find?_isSome, ValueType.takes_eq_admits hbool hint]
  · intro e' hflat' hsame
    have hv' : e'.WithinFloats v := fun hfloat => hv ((hsame .float).mp hfloat)
    rw [coerce_of_flat hflat' hv', isSome_find?_of_same_types hsame]
    exact ⟨_, rfl⟩
  · intro hnone
    rw [Option.isSome_eq_false_iff, Option.isNone_iff_eq_none] at hnone
    rw [hnone]
    rfl
  · intro hsome
    obtain ⟨t, ht⟩ := Option.isSome_iff_exists.mp hsome
    rw [ht, Option.map_some, Option.getD_some]
    obtain ⟨htaken, hagain⟩ := coerce_hold hflat hv ht
    refine ⟨?_, hold_eq_self ht, htaken, hagain, ?_⟩
    · rintro n rfl hfirst
      exact exists_hold_of_floatFirst ht hfirst hv
    · intro b hb
      rw [hb] at htaken ⊢
      exact exists_takes_bool_iff.mp htaken

theorem coercion_is_sound_for_float_before_int :
    let e : Expected := .oneOf [.type .str, .type .float, .type .int]
    let e' : Expected := .oneOf [.type .int, .type .float, .type .str, .type .float]
    e.Flat ∧ e.WithinFloats (.int 3) ∧ e.FloatFirst 3 ∧ e'.Flat ∧
      (∀ t, t ∈ e'.types ↔ t ∈ e.types) ∧
      (∃ x, floatOfInt? 3 = some x ∧ e.coerce (.int 3) = .ok (true, .float x) ∧
        e.coerce (.float x) = .ok (true, .float x) ∧
        ∃ r', e'.coerce (.int 3) = .ok (true, r')) ∧
      e.WithinFloats (.bool true) ∧ e.coerce (.bool true) = .ok (false, .bool true) := by
  intro e e'
  have hflat : e.Flat := by
    simp [e, Flat, choices]
  have hflat' : e'.Flat := by
    simp [e', Flat, choices]
  have hwithin : e.WithinFloats (.int 3) := by
    rintro - n ⟨⟩
    decide +kernel
  have hfirst : e.FloatFirst 3 := ⟨[.str], [.int], rfl, by simp, by simp, by simp⟩
  have hsame : ∀ t, t ∈ e'.types ↔ t ∈ e.types := by
    intro t
    simp only [e, e', types, typesOfAll]
    grind
  have hbool : e.WithinFloats (.bool true) := fun _ n hn => nomatch hn
  refine ⟨hflat, hwithin, hfirst, hflat', hsame, ?_, hbool, ?_⟩
  · obtain ⟨matched, r, hcoerce, -, -, hmatched, -, hpermuted, -, htaken⟩ :=
      coercion_is_sound hflat hwithin
    obtain rfl : matched = true :=
      (hmatched 3 rfl).mpr (Or.inr (Or.inl (by simp [e, types, typesOfAll])))
    obtain ⟨hfloat, -, -, hagain, -⟩ := htaken rfl
    obtain ⟨x, hx, rfl⟩ := hfloat 3 rfl hfirst
    exact ⟨x, hx, hcoerce, hagain, hpermuted e' hflat' hsame⟩
  · obtain ⟨matched, r, hcoerce, -, hmatched, -, -, -, hunmatched, -⟩ :=
      coercion_is_sound hflat hbool
    obtain rfl : matched = false := by
      rw [← Bool.not_eq_true, hmatched true rfl]
      simp [e, types, typesOfAll]
    rw [hcoerce, hunmatched rfl]

/-- A class of its own takes truth values though neither they nor all values are wanted, and
a whole number stays one though floats stand behind the class and no whole numbers do. -/
theorem other_class_takes_truth_and_keeps_whole_number :
    let integral : ValueClass :=
      ⟨"Integral", fun v => match v with | .bool _ | .int _ => true | _ => false, by decide⟩
    let truth : Expected := .type (.other integral)
    let number : Expected := .oneOf [.type (.other integral), .type .float]
    truth.Flat ∧ .any ∉ truth.types ∧ .bool ∉ truth.types ∧
      truth.coerce (.bool true) = .ok (true, .bool true) ∧
      number.Flat ∧ .any ∉ number.types ∧ .int ∉ number.types ∧
      number.coerce (.int 3) = .ok (true, .int 3) := by
  intro integral truth number
  have htruth : truth.Flat := by
    simp [truth, Flat, choices]
  have hnumber : number.Flat := by
    simp [number, Flat, choices]
  refine ⟨htruth, ?_, ?_, rfl, hnumber, ?_, ?_, rfl⟩
  · simp [truth, types]
  · simp [truth, types]
  · simp [number, types, typesOfAll]
  · simp [number, types, typesOfAll]

end Expected

end TreePath
