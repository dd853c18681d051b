import TreePath.Proofs.Value.Equality
import TreePath.Proofs.Walk.Composition

namespace TreePath.Replacement

open TreePath.Composition

/-- The sorts of arrays. -/
def HoldsItems (hold : List Value → Value) : Prop :=
  hold = Value.list ∨ hold = Value.tuple

/-- The sorts of maps. -/
def HoldsEntries (hold : List (String × Value) → Value) : Prop :=
  hold = Value.map ∨ hold = Value.view

/-- The second tree is the first one with the value at the end of the steps replaced.
Of entries with the same name the first one counts. -/
inductive Replaced (new : Value) : List Step → Value → Value → Prop where
  | nil (v : Value) : Replaced new [] v new
  | here {rest : List Step} {v w : Value} (h : Replaced new rest v w) :
      Replaced new (.here :: rest) v w
  | item {hold : List Value → Value} (hhold : HoldsItems hold)
      {before after : List Value} {i : Index} {rest : List Step} {v w : Value}
      (hi : absolute? i.val (before.length + 1 + after.length) = some (before.length : Int))
      (h : Replaced new rest v w) :
      Replaced new (.index i :: rest) (hold (before ++ v :: after))
        (hold (before ++ w :: after))
  | entry {hold : List (String × Value) → Value} (hhold : HoldsEntries hold)
      {before after : List (String × Value)} {name : String} {rest : List Step}
      {v w : Value} (hname : name ∉ before.map (·.1)) (h : Replaced new rest v w) :
      Replaced new (.key name :: rest) (hold (before ++ (name, v) :: after))
        (hold (before ++ (name, w) :: after))

section Parts

variable {v w : Value}

theorem items?_eq_some_iff {items : List Value} :
    v.items? = some items ↔ ∃ hold, HoldsItems hold ∧ v = hold items := by
  constructor
  · intro h
    cases v with
    | list xs =>
        cases h
        exact ⟨.list, Or.inl rfl, rfl⟩
    | tuple xs =>
        cases h
        exact ⟨.tuple, Or.inr rfl, rfl⟩
    | _ => cases h
  · rintro ⟨hold, rfl | rfl, rfl⟩
    · rfl
    · rfl

theorem entries?_eq_some_iff {entries : List (String × Value)} :
    v.entries? = some entries ↔ ∃ hold, HoldsEntries hold ∧ v = hold entries := by
  constructor
  · intro h
    cases v with
    | map xs =>
        cases h
        exact ⟨.map, Or.inl rfl, rfl⟩
    | view xs =>
        cases h
        exact ⟨.view, Or.inr rfl, rfl⟩
    | _ => cases h
  · rintro ⟨hold, rfl | rfl, rfl⟩
    · rfl
    · rfl

theorem element?_eq_some_iff {items : List Value} {i : Int} :
    element? items i = some w ↔ ∃ before after, items = before ++ w :: after ∧
      absolute? i (before.length + 1 + after.length) = some (before.length : Int) := by
  constructor
  · intro h
    obtain ⟨place, hplace, hw⟩ := Option.bind_eq_some_iff.mp h
    have hbounds := bounds_of_absolute? hplace
    obtain ⟨hlt, rfl⟩ := List.getElem?_eq_some_iff.mp hw
    refine ⟨items.take place.toNat, items.drop (place.toNat + 1), ?_, ?_⟩
    · rw [← List.drop_eq_getElem_cons hlt, List.take_append_drop]
    · have hfront : ((items.take place.toNat).length : Int) = place := by
        rw [List.length_take_of_le (Nat.le_of_lt hlt)]
        omega
      have hwhole : (place + 1 + (items.drop (place.toNat + 1)).length : Int) =
          items.length := by
        rw [List.length_drop]
        omega
      rw [hfront, hwhole, hplace]
  · rintro ⟨before, after, rfl, hi⟩
    have hlength : ((before ++ w :: after).length : Int) =
        before.length + 1 + after.length := by
      rw [List.length_append, List.length_cons]
      omega
    have hplace : (before ++ w :: after)[before.length]? = some w := by simp
    rw [element?, hlength, hi, Option.bind_some, Int.toNat_natCast, hplace]

theorem lookup?_eq_some_iff {entries : List (String × Value)} {name : String} :
    Value.lookup? name entries = some w ↔ ∃ before after,
      entries = before ++ (name, w) :: after ∧ name ∉ before.map (·.1) := by
  induction entries with
  | nil =>
      constructor
      · rintro ⟨⟩
      · rintro ⟨before, after, hsplit, -⟩
        cases before <;> cases hsplit
  | cons e rest ih =>
      obtain ⟨key, u⟩ := e
      rw [Value.lookup?]
      by_cases hkey : key = name
      · subst hkey
        rw [if_pos rfl, Option.some.injEq]
        constructor
        · rintro rfl
          exact ⟨[], rest, rfl, List.not_mem_nil⟩
        · rintro ⟨before, after, hsplit, hname⟩
          cases before with
          | nil =>
              cases hsplit
              rfl
          | cons e before =>
              cases hsplit
              exact absurd List.mem_cons_self hname
      · rw [if_neg hkey, ih]
        constructor
        · rintro ⟨before, after, rfl, hname⟩
          refine ⟨(key, u) :: before, after, rfl, ?_⟩
          rw [List.map_cons, List.mem_cons, not_or]
          exact ⟨Ne.symm hkey, hname⟩
        · rintro ⟨before, after, hsplit, hname⟩
          cases before with
          | nil =>
              cases hsplit
              exact absurd rfl hkey
          | cons e before =>
              cases hsplit
              exact ⟨before, after, rfl, fun h => hname (List.mem_cons_of_mem _ h)⟩

end Parts

section Walk

variable {new v w : Value} {steps : List Step} {trail : List Visit}

theorem exists_replaced_of_walk (new : Value) (h : walk v steps = .ok (w, trail)) :
    ∃ edited, Replaced new steps v edited := by
  induction steps generalizing v trail with
  | nil => exact ⟨new, .nil v⟩
  | cons s rest ih =>
      obtain ⟨u, more, hs, hrest, -⟩ := walk_cons_eq_ok_iff.mp h
      obtain ⟨edited, hedited⟩ := ih hrest
      cases s with
      | here =>
          cases hs
          exact ⟨edited, .here hedited⟩
      | index i =>
          obtain ⟨items, hitems, hu⟩ := apply_index_eq_ok_iff.mp hs
          obtain ⟨hold, hhold, rfl⟩ := items?_eq_some_iff.mp hitems
          obtain ⟨before, after, rfl, hi⟩ := element?_eq_some_iff.mp hu
          exact ⟨_, .item hhold hi hedited⟩
      | key name =>
          obtain ⟨entries, hentries, hu⟩ := apply_key_eq_ok_iff.mp hs
          obtain ⟨hold, hhold, rfl⟩ := entries?_eq_some_iff.mp hentries
          obtain ⟨before, after, rfl, hname⟩ := lookup?_eq_some_iff.mp hu
          exact ⟨_, .entry hhold hname hedited⟩

theorem exists_walk_of_replaced {edited : Value} (h : Replaced new steps v edited) :
    ∃ trail, walk edited steps = .ok (new, trail) := by
  induction h with
  | nil v => exact ⟨[], rfl⟩
  | here h ih =>
      obtain ⟨trail, htrail⟩ := ih
      exact ⟨_, walk_cons_eq_ok_iff.mpr ⟨_, _, rfl, htrail, rfl⟩⟩
  | @item hold hhold before after i rest u w hi h ih =>
      obtain ⟨trail, htrail⟩ := ih
      have hs : (Step.index i).apply (hold (before ++ w :: after)) = .ok w :=
        apply_index_eq_ok_iff.mpr ⟨_, items?_eq_some_iff.mpr ⟨hold, hhold, rfl⟩,
          element?_eq_some_iff.mpr ⟨before, after, rfl, hi⟩⟩
      exact ⟨_, walk_cons_eq_ok_iff.mpr ⟨_, _, hs, htrail, rfl⟩⟩
  | @entry hold hhold before after name rest u w hname h ih =>
      obtain ⟨trail, htrail⟩ := ih
      have hs : (Step.key name).apply (hold (before ++ (name, w) :: after)) = .ok w :=
        apply_key_eq_ok_iff.mpr ⟨_, entries?_eq_some_iff.mpr ⟨hold, hhold, rfl⟩,
          lookup?_eq_some_iff.mpr ⟨before, after, rfl, hname⟩⟩
      exact ⟨_, walk_cons_eq_ok_iff.mpr ⟨_, _, hs, htrail, rfl⟩⟩

end Walk

end TreePath.Replacement
