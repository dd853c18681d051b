import Mathlib.Data.List.Forall2
import TreePath.Position
import TreePath.Value.Equality

namespace TreePath.Value

def Equal (v w : Value) : Prop :=
  v.same w = true

instance (v w : Value) : Decidable (v.Equal w) :=
  inferInstanceAs (Decidable (v.same w = true))

section Entries

theorem mem_of_lookup? {entries : List (String × Value)} {key : String} {v : Value}
    (h : lookup? key entries = some v) : (key, v) ∈ entries := by
  induction entries with
  | nil => cases h
  | cons e rest ih =>
      obtain ⟨k, u⟩ := e
      rw [lookup?] at h
      split at h
      · rename_i hk
        cases h
        rw [hk]
        exact List.mem_cons_self
      · exact List.mem_cons_of_mem _ (ih h)

theorem lookup?_isSome_iff {entries : List (String × Value)} {key : String} :
    (lookup? key entries).isSome = true ↔ ∃ v, (key, v) ∈ entries := by
  constructor
  · intro h
    obtain ⟨v, hv⟩ := Option.isSome_iff_exists.mp h
    exact ⟨v, mem_of_lookup? hv⟩
  · rintro ⟨v, hv⟩
    induction entries with
    | nil => cases hv
    | cons e rest ih =>
        obtain ⟨k, u⟩ := e
        rw [lookup?]
        split
        · rfl
        · rename_i hk
          rcases List.mem_cons.mp hv with heq | hrest
          · cases heq
            exact absurd rfl hk
          · exact ih hrest

theorem lookup?_eq_none_iff {entries : List (String × Value)} {key : String} :
    lookup? key entries = none ↔ key ∉ entries.map (·.1) := by
  rw [← Option.not_isSome_iff_eq_none, lookup?_isSome_iff]
  simp

theorem lookup?_of_mem {entries : List (String × Value)} {key : String} {v : Value}
    (hkeys : (entries.map (·.1)).Nodup) (h : (key, v) ∈ entries) :
    lookup? key entries = some v := by
  induction entries with
  | nil => cases h
  | cons e rest ih =>
      obtain ⟨k, u⟩ := e
      rw [List.map_cons, List.nodup_cons] at hkeys
      rw [lookup?]
      rcases List.mem_cons.mp h with heq | hrest
      · cases heq
        rw [if_pos rfl]
      · split
        · rename_i hk
          exact absurd (List.mem_map.mpr ⟨_, hrest, hk.symm⟩) hkeys.1
        · exact ih hkeys.2 hrest

theorem keysWithin_iff {xs ys : List (String × Value)} :
    keysWithin xs ys = true ↔ ∀ e ∈ xs, (lookup? e.1 ys).isSome = true := by
  rw [keysWithin, List.all_eq_true]

theorem sameEntries_iff {xs ys : List (String × Value)} :
    sameEntries xs ys = true ↔
      ∀ e ∈ xs, ∃ w, lookup? e.1 ys = some w ∧ e.2.Equal w := by
  induction xs with
  | nil => simp [sameEntries]
  | cons e rest ih =>
      obtain ⟨k, v⟩ := e
      rw [sameEntries, Bool.and_eq_true, ih, List.forall_mem_cons]
      refine and_congr_left fun _ => ?_
      cases lookup? k ys with
      | none => simp
      | some w => simp [Equal]

/-- Under each key the two hold equal values, or neither holds any. -/
def EqualEntries (xs ys : List (String × Value)) : Prop :=
  ∀ key, Option.Rel Equal (lookup? key xs) (lookup? key ys)

theorem equalEntries_of_same {xs ys : List (String × Value)}
    (hentries : sameEntries xs ys = true) (hkeys : keysWithin ys xs = true) :
    EqualEntries xs ys := by
  intro key
  cases hx : lookup? key xs with
  | some v =>
      obtain ⟨w, hw, hvw⟩ := sameEntries_iff.mp hentries _ (mem_of_lookup? hx)
      rw [hw]
      exact .some hvw
  | none =>
      cases hy : lookup? key ys with
      | none => exact .none
      | some w =>
          have hsome := keysWithin_iff.mp hkeys _ (mem_of_lookup? hy)
          rw [hx] at hsome
          cases hsome

theorem same_of_equalEntries {xs ys : List (String × Value)}
    (hdistinct : (xs.map (·.1)).Nodup) (h : EqualEntries xs ys) :
    (sameEntries xs ys && keysWithin ys xs) = true := by
  rw [Bool.and_eq_true, sameEntries_iff, keysWithin_iff]
  refine ⟨?_, ?_⟩
  · rintro ⟨key, v⟩ he
    have hkey := h key
    rw [lookup?_of_mem hdistinct he] at hkey
    cases hy : lookup? key ys with
    | none =>
        rw [hy] at hkey
        cases hkey
    | some w =>
        rw [hy] at hkey
        cases hkey with
        | some hvw => exact ⟨w, rfl, hvw⟩
  · rintro ⟨key, w⟩ he
    have hkey := h key
    cases hx : lookup? key xs with
    | some v => rfl
    | none =>
        have hsome := lookup?_isSome_iff.mpr ⟨w, he⟩
        rw [hx] at hkey
        cases hy : lookup? key ys with
        | none =>
            rw [hy] at hsome
            cases hsome
        | some u =>
            rw [hy] at hkey
            cases hkey

end Entries

section Items

theorem sameAll_iff {xs ys : List Value} :
    sameAll xs ys = true ↔ List.Forall₂ Equal xs ys := by
  induction xs generalizing ys with
  | nil => rw [sameAll, List.isEmpty_iff, List.forall₂_nil_left_iff]
  | cons x xs ih =>
      cases ys with
      | nil =>
          constructor
          · rintro ⟨⟩
          · rintro ⟨⟩
      | cons y ys =>
          rw [sameAll, Bool.and_eq_true, ih, List.forall₂_cons]
          rfl

theorem element?_forall₂ {xs ys : List Value} (h : List.Forall₂ Equal xs ys)
    (i : Int) : Option.Rel Equal (element? xs i) (element? ys i) := by
  rw [element?, element?, h.length_eq]
  cases absolute? i ys.length with
  | none => exact .none
  | some place =>
      rw [Option.bind_some, Option.bind_some]
      by_cases hplace : place.toNat < xs.length
      · have hplace' : place.toNat < ys.length := h.length_eq ▸ hplace
        rw [List.getElem?_eq_getElem hplace, List.getElem?_eq_getElem hplace']
        exact .some (h.get hplace hplace')
      · have hle : xs.length ≤ place.toNat := Nat.not_lt.mp hplace
        rw [List.getElem?_eq_none hle, List.getElem?_eq_none (h.length_eq ▸ hle)]
        exact .none

end Items

section Parts

variable {v w : Value}

theorem items?_of_equal (h : v.Equal w) :
    Option.Rel (List.Forall₂ Equal) v.items? w.items? := by
  cases v with
  | list xs =>
      cases w with
      | list ys => exact .some (sameAll_iff.mp h)
      | _ => cases h
  | tuple xs =>
      cases w with
      | tuple ys => exact .some (sameAll_iff.mp h)
      | _ => cases h
  | _ =>
      cases w with
      | list ys => cases h
      | tuple ys => cases h
      | _ => exact .none

theorem entries?_of_equal (h : v.Equal w) :
    Option.Rel EqualEntries v.entries? w.entries? := by
  cases v with
  | map xs | view xs =>
      cases w with
      | map ys | view ys =>
          obtain ⟨hentries, hkeys⟩ := Bool.and_eq_true_iff.mp h
          exact .some (equalEntries_of_same hentries hkeys)
      | _ => cases h
  | _ =>
      cases w with
      | map ys | view ys => cases h
      | _ => exact .none

theorem equal_iff_of_entries? {xs ys : List (String × Value)}
    (hv : v.entries? = some xs) (hw : w.entries? = some ys)
    (hdistinct : (xs.map (·.1)).Nodup) : v.Equal w ↔ EqualEntries xs ys := by
  constructor
  · intro h
    have hentries := entries?_of_equal h
    rw [hv, hw] at hentries
    cases hentries with
    | some h => exact h
  · intro h
    cases v with
    | map zs | view zs =>
        cases hv
        rw [Equal, same, hw]
        exact same_of_equalEntries hdistinct h
    | _ => cases hv

theorem equal_iff_of_number? {m n : Number} (hv : v.number? = some m)
    (hw : w.number? = some n) : v.Equal w ↔ m.beq n = true := by
  cases v with
  | bool b | int b | float b =>
      cases hv
      rw [Equal, same, hw]
  | _ => cases hv

theorem equal_iff_of_octets? {a b : List UInt8} (hv : v.octets? = some a)
    (hw : w.octets? = some b) : v.Equal w ↔ a = b := by
  cases v with
  | bytes c | buffer c =>
      cases hv
      rw [Equal, same, hw, beq_iff_eq, Option.some.injEq, eq_comm]
  | _ => cases hv

theorem isMissing_of_equal (h : v.Equal w) : v.isMissing = w.isMissing := by
  cases v with
  | missing => exact h.symm
  | _ =>
      cases w with
      | missing => cases h
      | _ => rfl

theorem equal_missing_iff : v.Equal .missing ↔ v = .missing := by
  constructor
  · intro h
    exact isMissing_eq_true_iff.mp (isMissing_of_equal h)
  · rintro rfl
    rfl

theorem missing_equal_iff : Value.missing.Equal v ↔ v = .missing := by
  rw [Equal, same, isMissing_eq_true_iff]

end Parts

/-- What equality goes by. Numbers are compared as numbers, truth values among
them; maps by what they hold under each key, wherever it stands and whether or not
the map can be changed; bytes likewise without regard to their holder. -/
structure EqualityLaws : Prop where
  numbers : ∀ (v w : Value) (m n : Number), v.number? = some m →
    w.number? = some n → (v.Equal w ↔ m.beq n = true)
  one : (Value.bool true).Equal (.int 1) ∧ (Value.int 1).Equal (.float 1)
  maps : ∀ (v w : Value) (xs ys : List (String × Value)),
    v.entries? = some xs → w.entries? = some ys →
    (xs.map (·.1)).Nodup → (v.Equal w ↔ EqualEntries xs ys)
  lists : ∀ xs ys, (list xs).Equal (list ys) ↔ List.Forall₂ Equal xs ys
  tuples : ∀ xs ys, (tuple xs).Equal (tuple ys) ↔ List.Forall₂ Equal xs ys
  apart : ∀ xs ys, ¬(list xs).Equal (tuple ys) ∧ ¬(tuple xs).Equal (list ys)
  octets : ∀ (v w : Value) (a b : List UInt8), v.octets? = some a →
    w.octets? = some b → (v.Equal w ↔ a = b)
  absent : ∀ v : Value, (v.Equal missing ↔ v = missing) ∧ (missing.Equal v ↔ v = missing)

theorem equalityLaws : EqualityLaws where
  numbers := fun _ _ _ _ hv hw => equal_iff_of_number? hv hw
  one := ⟨by decide +kernel, by decide +kernel⟩
  maps := fun _ _ _ _ hv hw hdistinct => equal_iff_of_entries? hv hw hdistinct
  lists := fun _ _ => sameAll_iff
  tuples := fun _ _ => sameAll_iff
  apart := fun _ _ => ⟨nofun, nofun⟩
  octets := fun _ _ _ _ hv hw => equal_iff_of_octets? hv hw
  absent := fun _ => ⟨equal_missing_iff, missing_equal_iff⟩

end TreePath.Value
