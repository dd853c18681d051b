import TreePath.Proofs.Reading.RoundTrip
import TreePath.Proofs.Value.Equality
import TreePath.Step.Record

namespace TreePath.Step

open TreePath.Grammar (clear_nil)
open TreePath.RoundTrip (eq_of_write_append)
open TreePath.Value (lookup? lookup?_of_mem lookup?_eq_none_iff mem_of_lookup? Equal EqualEntries)

abbrev Fields :=
  List (String × Value)

/-- The fields are these and no others, in whatever order. -/
def Holds (fields entries : Fields) : Prop :=
  ∀ key, lookup? key fields = lookup? key entries

section Fields

variable {fields entries : Fields} {form : String}

theorem strayFields_eq_nil_iff {own : List String} :
    strayFields form own fields = [] ↔ ∀ key ∉ own, lookup? key fields = none := by
  rw [strayFields, List.map_eq_nil_iff, List.filter_eq_nil_iff]
  simp only [lookup?_eq_none_iff, Bool.not_eq_true', Bool.not_eq_false, List.contains_iff_mem,
    List.mem_map, not_exists, not_and]
  constructor
  · intro h key hkey e he heq
    exact hkey (heq ▸ h e he)
  · intro h e he
    by_contra hkey
    exact h e.1 hkey e he rfl

theorem holds_iff (hdistinct : (entries.map (·.1)).Nodup) :
    Holds fields entries ↔
      (∀ e ∈ entries, lookup? e.1 fields = some e.2) ∧
        ∀ key ∉ entries.map (·.1), lookup? key fields = none := by
  constructor
  · intro h
    refine ⟨?_, ?_⟩
    · intro e he
      rw [h e.1]
      exact lookup?_of_mem hdistinct he
    · intro key hkey
      rw [h key]
      exact lookup?_eq_none_iff.mpr hkey
  · rintro ⟨hown, hrest⟩ key
    cases hkey : lookup? key entries with
    | none => exact hrest key (lookup?_eq_none_iff.mp hkey)
    | some v => exact hown (key, v) (mem_of_lookup? hkey)

theorem nodup_keys_record (step : Step) : (step.record.map (·.1)).Nodup := by
  cases step <;> simp only [record, List.map_cons, List.map_nil] <;> decide

end Fields

section Read

variable {fields : Fields} {form field : String} {v : Value} {step : Step}
  {read : Value → Except RecordProblem Step}

theorem keyOfValue_eq_ok_iff :
    keyOfValue v = .ok step ↔ ∃ name, v = .str name ∧ step = .key name := by
  constructor
  · intro h
    cases v with
    | str name =>
        cases h
        exact ⟨name, rfl, rfl⟩
    | _ => cases h
  · rintro ⟨name, rfl, rfl⟩
    rfl

theorem indexOfValue_eq_ok_iff :
    indexOfValue v = .ok step ↔ ∃ i : Index, v = .int i.val ∧ step = .index i := by
  constructor
  · intro h
    cases v with
    | int n =>
        rw [indexOfValue] at h
        split at h
        · rename_i i hi
          cases h
          rw [← Index.ofInt?_eq_some_iff.mp hi]
          exact ⟨i, rfl, rfl⟩
        · cases h
    | _ => cases h
  · rintro ⟨i, rfl, rfl⟩
    rw [indexOfValue, Index.ofInt?_val]

theorem ofField_eq_ok_iff :
    ofField form field read fields = .ok step ↔
      (∃ v, lookup? field fields = some v ∧ read v = .ok step) ∧
        ∀ key ∉ ["kind", field], lookup? key fields = none := by
  rw [← @strayFields_eq_nil_iff fields form, ofField]
  cases hfield : lookup? field fields with
  | none => simp
  | some v =>
      cases hread : read v with
      | error problem => simp [hread]
      | ok found =>
          cases hstray : strayFields form ["kind", field] fields with
          | nil => simp [hread]
          | cons fault faults => simp [hread]

/-- A record is read only as the step whose record it is. -/
theorem ofFields_eq_ok_iff : ofFields fields = .ok step ↔ Holds fields step.record := by
  constructor
  · intro h
    unfold ofFields at h
    split at h
    · cases h
    · rename_i hkind
      obtain ⟨⟨v, hname, hread⟩, hrest⟩ := ofField_eq_ok_iff.mp h
      obtain ⟨name, rfl, rfl⟩ := keyOfValue_eq_ok_iff.mp hread
      refine (holds_iff (nodup_keys_record (.key name))).mpr ⟨?_, hrest⟩
      exact List.forall_mem_cons.mpr ⟨hkind, List.forall_mem_cons.mpr ⟨hname, nofun⟩⟩
    · rename_i hkind
      obtain ⟨⟨v, hindex, hread⟩, hrest⟩ := ofField_eq_ok_iff.mp h
      obtain ⟨i, rfl, rfl⟩ := indexOfValue_eq_ok_iff.mp hread
      refine (holds_iff (nodup_keys_record (.index i))).mpr ⟨?_, hrest⟩
      exact List.forall_mem_cons.mpr ⟨hkind, List.forall_mem_cons.mpr ⟨hindex, nofun⟩⟩
    · rename_i hkind
      split at h
      · rename_i hstray
        cases h
        exact (holds_iff (nodup_keys_record .here)).mpr
          ⟨List.forall_mem_singleton.mpr hkind, strayFields_eq_nil_iff.mp hstray⟩
      · cases h
    · cases h
  · intro h
    obtain ⟨hown, hrest⟩ := (holds_iff (nodup_keys_record step)).mp h
    unfold ofFields
    cases step with
    | key name =>
        have hkind := hown ("kind", .str "text") (by simp [record])
        have hname := hown ("name", .str name) (by simp [record])
        rw [hkind]
        exact ofField_eq_ok_iff.mpr ⟨⟨_, hname, rfl⟩, hrest⟩
    | index i =>
        have hkind := hown ("kind", .str "numeric") (by simp [record])
        have hindex := hown ("index", .int i.val) (by simp [record])
        have hread := indexOfValue_eq_ok_iff.mpr ⟨i, rfl, rfl⟩
        rw [hkind]
        exact ofField_eq_ok_iff.mpr ⟨⟨_, hindex, hread⟩, hrest⟩
    | here =>
        have hkind := hown ("kind", .str "self") (by simp [record])
        have hstray : strayFields "self" ["kind"] fields = [] := strayFields_eq_nil_iff.mpr hrest
        rw [hkind, hstray]
        rfl

theorem ofValue_eq_ok_iff :
    ofValue v = .ok step ↔ ∃ fields, v.entries? = some fields ∧ Holds fields step.record := by
  cases v with
  | map fields | view fields =>
      rw [ofValue, ofFields_eq_ok_iff]
      constructor
      · intro h
        exact ⟨fields, rfl, h⟩
      · rintro ⟨fields', heq, h⟩
        cases heq
        exact h
  | _ =>
      constructor
      · intro h
        cases h
      · rintro ⟨fields, heq, -⟩
        cases heq

theorem ofValue_record (step : Step) :
    ofValue (.map step.record) = .ok step ∧ ofValue (.view step.record) = .ok step :=
  ⟨ofValue_eq_ok_iff.mpr ⟨_, rfl, fun _ => rfl⟩, ofValue_eq_ok_iff.mpr ⟨_, rfl, fun _ => rfl⟩⟩

theorem exists_ofValue_iff (v : Value) :
    (∃ step, ofValue v = .ok step) ↔
      ∃ fields, v.entries? = some fields ∧
        ((∃ name, Holds fields [("kind", .str "text"), ("name", .str name)]) ∨
          (∃ n : Int, -9223372036854775808 ≤ n ∧ n ≤ 9223372036854775807 ∧
            Holds fields [("kind", .str "numeric"), ("index", .int n)]) ∨
          Holds fields [("kind", .str "self")]) := by
  simp only [ofValue_eq_ok_iff]
  constructor
  · rintro ⟨step, fields, hfields, h⟩
    refine ⟨fields, hfields, ?_⟩
    cases step with
    | key name => exact Or.inl ⟨name, h⟩
    | index i => exact Or.inr (Or.inl ⟨i.val, i.least_le, i.le_greatest, h⟩)
    | here => exact Or.inr (Or.inr h)
  · rintro ⟨fields, hfields, ⟨name, h⟩ | ⟨n, hleast, hgreatest, h⟩ | h⟩
    · exact ⟨.key name, fields, hfields, h⟩
    · exact ⟨.index ⟨n, hleast, hgreatest⟩, fields, hfields, h⟩
    · exact ⟨.here, fields, hfields, h⟩

end Read

section Equality

variable {v w : Value} {s t : Step}

/-- Whether a value is a text or a whole number. Such values are equal only to themselves
among their like. -/
def IsPlain : Value → Prop
  | .str _ | .int _ => True
  | _ => False

theorem beq_int_iff {m n : Int} : (Number.int m).beq (.int n) = true ↔ m = n := by
  rw [Number.beq, Number.compare?, beq_iff_eq, Option.some.injEq,
    Std.LawfulEqCmp.compare_eq_iff_eq]

theorem equal_iff_eq_of_isPlain (hv : IsPlain v) (hw : IsPlain w) : v.Equal w ↔ v = w := by
  cases v with
  | str a =>
      cases w with
      | str b => exact beq_iff_eq.trans (Value.str.injEq a b).symm.to_iff
      | int n => exact ⟨nofun, nofun⟩
      | _ => exact hw.elim
  | int m =>
      cases w with
      | int n => rw [Value.equal_iff_of_number? rfl rfl, beq_int_iff, Value.int.injEq]
      | str b => exact ⟨nofun, nofun⟩
      | _ => exact hw.elim
  | _ => exact hv.elim

theorem isPlain_of_lookup?_record {key : String} (h : lookup? key s.record = some v) :
    IsPlain v := by
  have hmem := mem_of_lookup? h
  cases s <;> simp only [record, List.mem_cons, List.not_mem_nil, or_false, Prod.mk.injEq] at hmem
  · rcases hmem with ⟨-, rfl⟩ | ⟨-, rfl⟩ <;> trivial
  · rcases hmem with ⟨-, rfl⟩ | ⟨-, rfl⟩ <;> trivial
  · obtain ⟨-, rfl⟩ := hmem
    trivial

theorem holds_of_equalEntries (h : EqualEntries s.record t.record) :
    Holds s.record t.record := by
  intro key
  have hkey := h key
  generalize hs : lookup? key s.record = v?, ht : lookup? key t.record = w? at hkey ⊢
  cases hkey with
  | none => rfl
  | some hvw =>
      have hv := isPlain_of_lookup?_record hs
      have hw := isPlain_of_lookup?_record ht
      rw [(equal_iff_eq_of_isPlain hv hw).mp hvw]

theorem equal_of_holds {fields : Fields} (hfields : v.entries? = some fields)
    (h : Holds fields s.record) : (Value.map s.record).Equal v := by
  rw [Value.equal_iff_of_entries? rfl hfields (nodup_keys_record s)]
  intro key
  rw [h key]
  cases hkey : lookup? key s.record with
  | none => exact .none
  | some v =>
      have hv := isPlain_of_lookup?_record hkey
      exact .some ((equal_iff_eq_of_isPlain hv hv).mpr rfl)

theorem equal_record_iff : (Value.map s.record).Equal (.map t.record) ↔ s = t := by
  constructor
  · intro h
    have hentries := (Value.equal_iff_of_entries? rfl rfl (nodup_keys_record s)).mp h
    have hread : ofFields s.record = .ok t :=
      ofFields_eq_ok_iff.mpr (holds_of_equalEntries hentries)
    have hself : ofFields s.record = .ok s := ofFields_eq_ok_iff.mpr fun _ => rfl
    exact Except.ok.inj (hself.symm.trans hread)
  · rintro rfl
    exact equal_of_holds rfl fun _ => rfl

theorem render_eq_iff : s.render = t.render ↔ s = t := by
  constructor
  · intro h
    have hwrite : s.write ++ [] = t.write ++ [] := by
      rw [String.ofList_injective h]
    exact (eq_of_write_append (clear_nil _) (clear_nil _) hwrite).1
  · rintro rfl
    rfl

end Equality

/-- A value is read as a step exactly if it is a map with the fields of a form and no
others, each of its own type. The record of the step equals the value, each step is read
back from its record, and steps are told apart by their records. -/
theorem records_and_steps_are_inverse :
    (∀ v, (∃ step, ofValue v = .ok step) ↔
      ∃ fields, v.entries? = some fields ∧
        ((∃ name, Holds fields [("kind", .str "text"), ("name", .str name)]) ∨
          (∃ n : Int, -9223372036854775808 ≤ n ∧ n ≤ 9223372036854775807 ∧
            Holds fields [("kind", .str "numeric"), ("index", .int n)]) ∨
          Holds fields [("kind", .str "self")])) ∧
    (∀ v step, ofValue v = .ok step →
      (Value.map step.record).Equal v ∧
        ∃ fields, v.entries? = some fields ∧ Holds fields step.record) ∧
    (∀ step, ofValue (.map step.record) = .ok step ∧
      ofValue (.view step.record) = .ok step) ∧
    ∀ s t : Step, (s = t ↔ (Value.map s.record).Equal (.map t.record)) ∧
      (s = t ↔ s.render = t.render) := by
  refine ⟨exists_ofValue_iff, ?_, ofValue_record, ?_⟩
  · intro v step h
    obtain ⟨fields, hfields, hholds⟩ := ofValue_eq_ok_iff.mp h
    exact ⟨equal_of_holds hfields hholds, fields, hfields, hholds⟩
  · intro s t
    exact ⟨equal_record_iff.symm, render_eq_iff.symm⟩

theorem records_and_steps_are_inverse_at_least_index :
    let v : Value := .view [("index", .int leastWord), ("kind", .str "numeric")]
    let step : Step := .index ⟨leastWord, by decide, by decide⟩
    ofValue v = .ok step ∧ (Value.map step.record).Equal v := by
  intro v step
  have hv : ofValue v = .ok step := rfl
  exact ⟨hv, (records_and_steps_are_inverse.2.1 v step hv).1⟩

end TreePath.Step
