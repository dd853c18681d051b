import TreePath.Proofs.Expected.Soundness

/-!
Expectations inside of expectations. A choice that is no type is tried as a whole, and
the exceptions that hold for numbers are not made inside it. To all other values, and
to plain membership, it makes no difference how deep a type stands.
-/

namespace TreePath.Expected

/-- The choice of the types, all of them side by side. -/
def ofTypes (ts : List ValueType) : Expected :=
  oneOf (ts.map type)

def flatten (e : Expected) : Expected :=
  ofTypes e.types

/-- The types inside a choice that is none itself. -/
def inside : Expected → List ValueType
  | type _ => []
  | oneOf es => typesOfAll es

def innerTypes (e : Expected) : List ValueType :=
  e.choices.flatMap inside

instance (t : ValueType) : Decidable (t = .float) :=
  match t with
  | .float => .isTrue rfl
  | .any | .int | .str | .bool | .list | .tuple | .map | .bytes | .null | .other _ => .isFalse nofun

/-- What a choice is to a whole number, which finds no floats inside. -/
def wholeTypes : Expected → List ValueType
  | type t => [t]
  | oneOf es => (typesOfAll es).filter (· ≠ .float)

mutual

/-- There is a type in everything inside the expectation. -/
def Filled : Expected → Prop
  | type _ => True
  | oneOf es => AllFilled es

def AllFilled : List Expected → Prop
  | [] => True
  | e :: rest => e.types ≠ [] ∧ e.Filled ∧ AllFilled rest

end

variable {e : Expected} {v : Value}

section Types

theorem typesOfAll_eq_flatMap (es : List Expected) : typesOfAll es = es.flatMap types := by
  induction es with
  | nil => rfl
  | cons c rest ih => rw [typesOfAll, List.flatMap_cons, ih]

theorem types_eq_flatMap (e : Expected) : e.types = e.choices.flatMap types := by
  cases e with
  | type t => rfl
  | oneOf es => exact typesOfAll_eq_flatMap es

theorem types_ofTypes (ts : List ValueType) : (ofTypes ts).types = ts := by
  rw [ofTypes, types, typesOfAll_eq_flatMap, List.flatMap_map]
  exact List.flatMap_singleton' ts

theorem flat_ofTypes (ts : List ValueType) : (ofTypes ts).Flat := by
  intro c hc
  obtain ⟨t, -, rfl⟩ := List.mem_map.mp hc
  exact ⟨t, rfl⟩

theorem mem_innerTypes {es : List Expected} {t : ValueType} (hes : oneOf es ∈ e.choices)
    (ht : t ∈ typesOfAll es) : t ∈ e.innerTypes :=
  List.mem_flatMap.mpr ⟨oneOf es, hes, ht⟩

mutual

theorem admits_eq_any (e : Expected) (v : Value) :
    e.admits v = e.types.any (·.admits v) := by
  cases e with
  | type t => simp [admits, types]
  | oneOf es => exact anyAdmits_eq_any es v

theorem anyAdmits_eq_any (es : List Expected) (v : Value) :
    anyAdmits es v = (typesOfAll es).any (·.admits v) := by
  cases es with
  | nil => rfl
  | cons c rest =>
      rw [anyAdmits, typesOfAll, List.any_append, admits_eq_any c v, anyAdmits_eq_any rest v]

end

end Types

section Text

theorem typesOfAll_ne_nil {es : List Expected} (h : AllFilled es) (hes : es ≠ []) :
    typesOfAll es ≠ [] := by
  cases es with
  | nil => exact absurd rfl hes
  | cons c rest => exact List.append_ne_nil_of_left_ne_nil h.1 _

theorem describeAll_ne_nil {es : List Expected} (hes : es ≠ []) : describeAll es ≠ [] := by
  cases es with
  | nil => exact absurd rfl hes
  | cons c rest => exact List.cons_ne_nil _ _

theorem describe_ofTypes (ts : List ValueType) :
    (ofTypes ts).describe = " | ".intercalate (ts.map ValueType.name) := by
  have hnames : describeAll (ts.map type) = ts.map ValueType.name := by
    induction ts with
    | nil => rfl
    | cons t ts ih => rw [List.map_cons, describeAll, ih, List.map_cons, describe]
  rw [ofTypes, describe, hnames]

mutual

theorem describe_eq_intercalate (e : Expected) (h : e.Filled) :
    e.describe = " | ".intercalate (e.types.map ValueType.name) := by
  cases e with
  | type t => rfl
  | oneOf es => exact intercalate_describeAll es h

theorem intercalate_describeAll (es : List Expected) (h : AllFilled es) :
    " | ".intercalate (describeAll es) =
      " | ".intercalate ((typesOfAll es).map ValueType.name) := by
  cases es with
  | nil => rfl
  | cons c rest =>
      obtain ⟨hc, hfilled, hrest⟩ := h
      have hhead := describe_eq_intercalate c hfilled
      have htail := intercalate_describeAll rest hrest
      rw [describeAll, typesOfAll, List.map_append]
      by_cases hnil : rest = []
      · subst hnil
        rw [typesOfAll, List.map_nil, List.append_nil, ← hhead]
        exact String.intercalate_singleton
      · rw [String.intercalate_cons_of_ne_nil (describeAll_ne_nil hnil),
          String.intercalate_append_of_ne_nil (by simpa using hc)
            (by simpa using typesOfAll_ne_nil hrest hnil), hhead, htail]

end

end Text

section Fit

theorem fitFirst?_singleton (v : Value) (c : Expected) : fitFirst? v [c] = fit? v c := by
  rw [fitFirst?]
  cases fit? v c with
  | error e => rfl
  | ok found => cases found <;> rfl

theorem fitFirst?_append (v : Value) (before after : List Expected) :
    fitFirst? v (before ++ after) =
      match fitFirst? v before with
      | .ok none => fitFirst? v after
      | decided => decided := by
  induction before with
  | nil => rfl
  | cons c rest ih =>
      rw [List.cons_append, fitFirst?, fitFirst?]
      cases fit? v c with
      | error e => rfl
      | ok found =>
          cases found with
          | some w => rfl
          | none => exact ih

theorem fitFirst?_flatMap {g : Expected → List ValueType} {cs : List Expected}
    (h : ∀ c ∈ cs, fitFirst? v ((g c).map type) = fit? v c) :
    fitFirst? v ((cs.flatMap g).map type) = fitFirst? v cs := by
  induction cs with
  | nil => rfl
  | cons c rest ih =>
      rw [List.flatMap_cons, List.map_append, fitFirst?_append, h c List.mem_cons_self,
        ih fun c' hc' => h c' (List.mem_cons_of_mem _ hc'), fitFirst?]
      cases fit? v c with
      | error e => rfl
      | ok found => cases found <;> rfl

theorem fitFirst?_of_all {takes : Expected → Bool} {cs : List Expected}
    (h : ∀ c ∈ cs, fit? v c = .ok (if takes c then some v else none)) :
    fitFirst? v cs = .ok (if cs.any takes then some v else none) := by
  induction cs with
  | nil => rfl
  | cons c rest ih =>
      rw [fitFirst?, h c List.mem_cons_self, List.any_cons]
      cases takes c with
      | true => rfl
      | false => exact ih fun c' hc' => h c' (List.mem_cons_of_mem _ hc')

theorem fit?_type_plainly {t : ValueType} (hbool : t = .int → ∀ b, v ≠ .bool b)
    (hint : t = .float → ∀ n, v ≠ .int n) :
    fit? v (type t) = .ok (if t.admits v then some v else none) := by
  cases v with
  | bool b =>
      cases t with
      | int => exact absurd rfl (hbool rfl b)
      | _ => rfl
  | int n =>
      cases t with
      | float => exact absurd rfl (hint rfl n)
      | _ => rfl
  | _ => cases t <;> rfl

theorem fitFirst?_plainly {ts : List ValueType} (hbool : .int ∈ ts → ∀ b, v ≠ .bool b)
    (hint : .float ∈ ts → ∀ n, v ≠ .int n) :
    fitFirst? v (ts.map type) = .ok (if ts.any (·.admits v) then some v else none) := by
  have hplain : ∀ c ∈ ts.map type,
      fit? v c = .ok (if c.admits v then some v else none) := by
    intro c hc
    obtain ⟨t, ht, rfl⟩ := List.mem_map.mp hc
    exact fit?_type_plainly (fun h => hbool (h ▸ ht)) fun h => hint (h ▸ ht)
  rw [fitFirst?_of_all hplain, List.any_map]
  rfl

theorem fit?_oneOf (v : Value) (es : List Expected) :
    fit? v (oneOf es) =
      .ok (if (typesOfAll es).any (·.admits v) then some v else none) := by
  rw [fit?, anyAdmits_eq_any]

end Fit

/-- Where no exception is made for the value inside a choice, it is the same whether
types stand inside or beside one another. -/
theorem coerce?_flatten (hbool : .int ∈ e.innerTypes → ∀ b, v ≠ .bool b)
    (hint : .float ∈ e.innerTypes → ∀ n, v ≠ .int n) :
    e.flatten.coerce? v = e.coerce? v := by
  rw [coerce?, coerce?, flatten, ofTypes, choices, types_eq_flatMap]
  refine fitFirst?_flatMap ?_
  intro c hc
  -- Only a choice that is no type differs from its types, and it does so at numbers.
  cases c with
  | type t => exact fitFirst?_singleton v (type t)
  | oneOf es =>
      rw [fit?_oneOf, types]
      exact fitFirst?_plainly (fun h => hbool (mem_innerTypes hc h))
        fun h => hint (mem_innerTypes hc h)

theorem coerce?_int (e : Expected) (n : Int) :
    e.coerce? (.int n) = (ofTypes (e.choices.flatMap wholeTypes)).coerce? (.int n) := by
  refine (fitFirst?_flatMap ?_).symm
  intro c hc
  cases c with
  | type t => exact fitFirst?_singleton _ (type t)
  | oneOf es =>
      have hadmits : ∀ t : ValueType,
          (decide (t ≠ .float) && t.admits (.int n)) = t.admits (.int n) := by
        intro t
        cases t <;> rfl
      have hfloat : .float ∉ wholeTypes (oneOf es) := by
        simp [wholeTypes]
      have hbool : ∀ b, Value.int n ≠ .bool b := by
        intro b h
        cases h
      have hplain : fitFirst? (.int n) ((wholeTypes (oneOf es)).map type) = _ :=
        fitFirst?_plainly (fun _ => hbool) fun h => absurd h hfloat
      rw [hplain, wholeTypes, List.any_filter, fit?_oneOf]
      simp only [hadmits]

theorem admits_bool_iff {t : ValueType} {b : Bool} :
    t.admits (.bool b) = true ↔
      t = .any ∨ t = .bool ∨ (∃ k, t = .other k ∧ k.admits (.bool b) = true) ∨ t = .int := by
  cases t <;> simp [ValueType.admits]

/-- Whether a choice takes a truth value. Inside a choice truth values are whole numbers,
beside one they are not. -/
def takesBool (b : Bool) : Expected → Bool
  | type t => t.takes (.bool b)
  | oneOf es => (typesOfAll es).any (·.admits (.bool b))

theorem takesBool_iff {b : Bool} {c : Expected} :
    takesBool b c = true ↔
      .any ∈ c.types ∨ .bool ∈ c.types ∨
        (∃ k, .other k ∈ c.types ∧ k.admits (.bool b) = true) ∨ .int ∈ c.inside := by
  cases c with
  | type t =>
      have htypes := @exists_takes_bool_iff (type t) b
      simp only [types, List.mem_singleton, exists_eq_left] at htypes ⊢
      rw [takesBool, htypes]
      simp [inside]
  | oneOf es =>
      simp only [takesBool, List.any_eq_true, admits_bool_iff, types, inside, and_or_left,
        exists_or, exists_eq_right, exists_mem_other_iff]

theorem fit?_bool (b : Bool) (c : Expected) :
    fit? (.bool b) c = .ok (if takesBool b c then some (.bool b) else none) := by
  cases c with
  | type t => cases t <;> rfl
  | oneOf es => exact fit?_oneOf _ es

theorem coerce_bool (e : Expected) (b : Bool) :
    ∃ matched, e.coerce (.bool b) = .ok (matched, .bool b) ∧
      (matched = true ↔ .any ∈ e.types ∨ .bool ∈ e.types ∨
        (∃ k, .other k ∈ e.types ∧ k.admits (.bool b) = true) ∨ .int ∈ e.innerTypes) := by
  refine ⟨e.choices.any (takesBool b), ?_, ?_⟩
  · rw [coerce, coerce?, fitFirst?_of_all fun c _ => fit?_bool b c]
    cases e.choices.any (takesBool b) with
    | true => rfl
    | false => rfl
  · rw [types_eq_flatMap e]
    simp only [List.any_eq_true, takesBool_iff, innerTypes, List.mem_flatMap, and_or_left,
      exists_or]
    refine or_congr_right (or_congr_right (or_congr_left ?_))
    constructor
    · rintro ⟨c, hc, k, ht, hk⟩
      exact ⟨k, ⟨c, hc, ht⟩, hk⟩
    · rintro ⟨k, ⟨c, hc, ht⟩, hk⟩
      exact ⟨c, hc, k, ht, hk⟩

/-- The depth at which a type stands makes no difference to plain membership, nor to the
text if there is a type in everything inside. It matters to the coercion of truth values
where whole numbers stand inside a choice, and of whole numbers where floats do. -/
theorem nesting_matters_to_inner_numbers_alone (e : Expected) :
    (∀ v, e.admits v = e.flatten.admits v) ∧
    (e.Filled → e.describe = e.flatten.describe) ∧
    (∀ v, (.int ∈ e.innerTypes → ∀ b, v ≠ .bool b) →
      (.float ∈ e.innerTypes → ∀ n, v ≠ .int n) → e.coerce v = e.flatten.coerce v) ∧
    (∀ b, ∃ matched, e.coerce (.bool b) = .ok (matched, .bool b) ∧
      (matched = true ↔ .any ∈ e.types ∨ .bool ∈ e.types ∨
        (∃ c, .other c ∈ e.types ∧ c.admits (.bool b) = true) ∨ .int ∈ e.innerTypes)) ∧
    (∀ n, e.coerce (.int n) = (ofTypes (e.choices.flatMap wholeTypes)).coerce (.int n)) ∧
    ∀ n, type .float ∈ e.choices → n.natAbs < Decimal.floatLimit →
      ∃ r, e.coerce (.int n) = .ok (true, r) := by
  have hint : ∀ n, e.coerce (.int n) =
      (ofTypes (e.choices.flatMap wholeTypes)).coerce (.int n) := by
    intro n
    rw [coerce, coerce, coerce?_int]
  refine ⟨?_, ?_, ?_, coerce_bool e, hint, ?_⟩
  · intro v
    rw [admits_eq_any, admits_eq_any, flatten, types_ofTypes]
  · intro hfilled
    rw [describe_eq_intercalate e hfilled, flatten, describe_ofTypes]
  · intro v hbool hfloat
    rw [coerce, coerce, coerce?_flatten hbool hfloat]
  · intro n hfloat hn
    have hmem : .float ∈ (ofTypes (e.choices.flatMap wholeTypes)).types := by
      rw [types_ofTypes]
      exact List.mem_flatMap.mpr ⟨type .float, hfloat, List.mem_singleton.mpr rfl⟩
    have hwithin : (ofTypes (e.choices.flatMap wholeTypes)).WithinFloats (.int n) := by
      rintro - m ⟨⟩
      exact hn
    have htaken : ((ofTypes (e.choices.flatMap wholeTypes)).types.find?
        (·.takes (.int n))).isSome = true :=
      List.find?_isSome.mpr ⟨.float, hmem, rfl⟩
    rw [hint, coerce_of_flat (flat_ofTypes _) hwithin, htaken]
    exact ⟨_, rfl⟩

theorem nesting_matters_to_inner_numbers_alone_in_pairs :
    let e : Expected :=
      .oneOf [.type .str, .oneOf [.type .int, .oneOf [.type .float, .type .str]],
        .type .float]
    let words : Expected :=
      .oneOf [.oneOf [.type .str, .oneOf [.type .any]], .type .float]
    e.Filled ∧ e.describe = e.flatten.describe ∧
      .int ∈ e.innerTypes ∧ .float ∈ e.innerTypes ∧
      e.coerce (.str "x") = e.flatten.coerce (.str "x") ∧
      e.coerce (.bool true) = .ok (true, .bool true) ∧
      .int ∉ words.innerTypes ∧ .float ∉ words.innerTypes ∧
      words.coerce (.int 3) = words.flatten.coerce (.int 3) ∧
      type .float ∈ e.choices ∧ ∃ r, e.coerce (.int 3) = .ok (true, r) := by
  intro e words
  have hfilled : e.Filled := by
    simp [e, Filled, AllFilled, types, typesOfAll]
  obtain ⟨-, hdescribe, hsame, hbool, -, hint⟩ := nesting_matters_to_inner_numbers_alone e
  obtain ⟨-, -, hwords, -⟩ := nesting_matters_to_inner_numbers_alone words
  have hinner : e.innerTypes = [.int, .float, .str] := rfl
  have hwords' : words.innerTypes = [.str, .any] := rfl
  have hwhole : .int ∉ words.innerTypes := by simp [hwords']
  have hfloat : .float ∉ words.innerTypes := by simp [hwords']
  have htop : type .float ∈ e.choices := by
    simp [e, choices]
  have htext : ∀ b, Value.str "x" ≠ .bool b := by
    intro b h
    cases h
  have hword : ∀ n, Value.str "x" ≠ .int n := by
    intro n h
    cases h
  obtain ⟨matched, htruth, hmatched⟩ := hbool true
  obtain rfl : matched = true := hmatched.mpr (by simp [hinner])
  exact ⟨hfilled, hdescribe hfilled, by simp [hinner], by simp [hinner],
    hsame (.str "x") (fun _ => htext) fun _ => hword, htruth, hwhole, hfloat,
    hwords (.int 3) (fun h => absurd h hwhole) fun h => absurd h hfloat, htop,
    hint 3 htop (by decide +kernel)⟩

/-- Inside a choice a whole number stands for a truth value, and no float for a whole
number; side by side it is the other way round. -/
theorem inner_numbers_are_tried_plainly :
    let whole : Expected := .oneOf [.oneOf [.type .int]]
    let float : Expected := .oneOf [.oneOf [.type .float]]
    whole.coerce (.bool true) = .ok (true, .bool true) ∧
      whole.flatten.coerce (.bool true) = .ok (false, .bool true) ∧
      whole.coerce (.bool true) ≠ whole.flatten.coerce (.bool true) ∧
      float.coerce (.int 1) = .ok (false, .int 1) ∧
      ∃ x, float.flatten.coerce (.int 1) = .ok (true, .float x) := by
  intro whole float
  refine ⟨rfl, rfl, nofun, rfl, ?_⟩
  cases hx : Decimal.floatOfInt? 1 with
  | none =>
      rw [Decimal.floatOfInt?_eq_none_iff] at hx
      exact absurd hx (by decide +kernel)
  | some x =>
      refine ⟨x, ?_⟩
      show (fitFirst? (.int 1) [type .float]).map _ = _
      rw [fitFirst?_singleton, fit?_int_float, hx]
      rfl

end TreePath.Expected
