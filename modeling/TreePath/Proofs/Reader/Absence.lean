import TreePath.Proofs.Json.Presence
import TreePath.Proofs.Walk.Trail

namespace TreePath.Absence

open TreePath.Access
open TreePath.Composition
open TreePath.Presence
open TreePath.Result
open TreePath.Trail
open TreePath.Session (outcome final)

/-- The value has an element under the key: at the position, or under the name. -/
inductive HasElement (v : Value) : Value → Prop where
  | place {items : List Value} {i : Int} (hv : v.items? = some items)
      (hlow : -(items.length : Int) ≤ i) (hhigh : i < items.length) :
      HasElement v (.int i)
  | name {entries : List (String × Value)} {name : String}
      (hv : v.entries? = some entries) (h : name ∈ entries.map (·.1)) :
      HasElement v (.str name)

/-- One way to come from a reader to another. -/
inductive Move where
  | path (p : PathArgument)
  | subscript (key : Value)

def take (r : Reader) : Move → SessionM Reader
  | .path p => r.readerAt p
  | .subscript key =>
    match r.subscript key with
    | .ok t => return t
    | .error m => throw (Failure.misuse m)

def derive (r : Reader) (moves : List Move) : SessionM Reader :=
  moves.foldlM take r

/-- Some subscript on the way led nowhere: the reader that it was put to, which the
moves before it had led to, had no such element. -/
def Misses (r : Reader) (moves : List Move) (s : Session) : Prop :=
  ∃ before key after u, moves = before ++ .subscript key :: after ∧
    outcome (derive r before) s = .ok u ∧ ¬HasElement u.root key

/-- The root is absent, or nothing within it is. -/
def Sound (r : Reader) : Prop :=
  r.root = .missing ∨ Whole r.root

section Subscript

variable {r t : Reader} {v w : Value} {key : Value}

/-- The element that a value has under a key. -/
def under? (v : Value) : Value → Option Value
  | .int i => v.items?.bind fun items => element? items i
  | .str name => v.entries?.bind (Value.lookup? name)
  | _ => none

theorem hasElement_int_iff {items : List Value} {i : Int} (hv : v.items? = some items) :
    HasElement v (.int i) ↔ element? items i ≠ none := by
  rw [ne_eq, element?_eq_none_iff_outside]
  constructor
  · intro h
    cases h with
    | place hv' hlow hhigh =>
        cases hv.symm.trans hv'
        omega
  · exact fun h => .place hv (by omega) (by omega)

theorem hasElement_str_iff {entries : List (String × Value)} {name : String}
    (hv : v.entries? = some entries) :
    HasElement v (.str name) ↔ Value.lookup? name entries ≠ none := by
  rw [ne_eq, Value.lookup?_eq_none_iff, not_not]
  constructor
  · intro h
    cases h with
    | name hv' h =>
        cases hv.symm.trans hv'
        exact h
  · exact .name hv

theorem hasElement_iff : HasElement v key ↔ under? v key ≠ none := by
  cases key with
  | int i =>
      rw [under?]
      cases hv : v.items? with
      | some items => exact hasElement_int_iff hv
      | none =>
          refine iff_of_false ?_ (fun h => h rfl)
          rintro (⟨hv', -, -⟩ | _)
          cases hv.symm.trans hv'
  | str name =>
      rw [under?]
      cases hv : v.entries? with
      | some entries => exact hasElement_str_iff hv
      | none =>
          refine iff_of_false ?_ (fun h => h rfl)
          rintro (_ | ⟨hv', -⟩)
          cases hv.symm.trans hv'
  | _ => exact iff_of_false nofun (fun h => h rfl)

theorem whole_of_under? (hv : Whole v) (h : under? v key = some w) : Whole w := by
  cases key with
  | int i =>
      obtain ⟨items, hitems, hw⟩ := Option.bind_eq_some_iff.mp h
      exact whole_of_item hv hitems (mem_of_element? hw)
  | str name =>
      obtain ⟨entries, hentries, hw⟩ := Option.bind_eq_some_iff.mp h
      exact whole_of_entry hv hentries (Value.mem_of_lookup? hw)
  | _ => cases h

theorem not_hasElement_missing (key : Value) : ¬HasElement .missing key := by
  rintro (⟨⟨⟩⟩ | ⟨⟨⟩⟩)

theorem eq_of_subscript (h : r.subscript key = .ok t) :
    t = ⟨(under? r.root key).getD .missing⟩ := by
  cases key with
  | int i =>
      cases h
      rw [Reader.atIndex, under?]
      cases r.root.items? <;> rfl
  | str name =>
      cases h
      rw [Reader.atKey, under?]
      cases r.root.entries? <;> rfl
  | _ => cases h

theorem subscript_cases (h : r.subscript key = .ok t) :
    (HasElement r.root key ∧ (Whole r.root → Whole t.root)) ∨
      (¬HasElement r.root key ∧ t = Reader.empty) := by
  rw [hasElement_iff, eq_of_subscript h]
  cases hw : under? r.root key with
  | none => exact Or.inr ⟨fun h => h rfl, rfl⟩
  | some w => exact Or.inl ⟨nofun, fun hwhole => whole_of_under? hwhole hw⟩

end Subscript

section Move

variable {r t : Reader} {m : Move} {s : Session}

theorem isEmpty_eq_false_iff {r : Reader} : r.isEmpty = false ↔ r.root ≠ .missing := by
  rw [Reader.isEmpty, ← Bool.not_eq_true, Value.isMissing_eq_true_iff]

theorem isEmpty_eq_false_of_whole {r : Reader} (h : Whole r.root) : r.isEmpty = false :=
  isEmpty_eq_false_iff.mpr h.ne_missing

theorem exists_resolve_of_readerAt {path : PathArgument}
    (h : outcome (r.readerAt path) s = .ok t) :
    t.root ≠ .missing ∧ ∃ p trail, resolve r.root p = .ok (t.root, trail) := by
  obtain ⟨p, hp⟩ := exists_fetch_of_readerAt h
  obtain ⟨v, trail, hv, hpresent, hcoerce⟩ := exists_present_of_fetch hp
  rw [substituteNull_missing, Expected.coerce?_anything] at hcoerce
  cases hcoerce
  exact ⟨hpresent, p, trail, hv⟩

theorem isEmpty_eq_false_of_readerAt {path : PathArgument}
    (h : outcome (r.readerAt path) s = .ok t) : t.isEmpty = false :=
  isEmpty_eq_false_iff.mpr (exists_resolve_of_readerAt h).1

theorem whole_of_readerAt {path : PathArgument} (hr : Sound r)
    (h : outcome (r.readerAt path) s = .ok t) : Whole r.root ∧ Whole t.root := by
  obtain ⟨hpresent, p, trail, hv⟩ := exists_resolve_of_readerAt h
  rw [resolve_eq_ok_iff] at hv
  rcases hr with hr | hr
  · rw [hr] at hv
    exact absurd (eq_missing_of_walk hv) hpresent
  · exact ⟨hr, whole_of_walk hr hv⟩

theorem outcome_take_subscript_eq_ok_iff {key : Value} :
    outcome (take r (.subscript key)) s = .ok t ↔ r.subscript key = .ok t := by
  rw [take]
  cases r.subscript key with
  | ok u => simp
  | error e => simp

/-- One move keeps a reader sound. It makes it empty only by a subscript that leads
nowhere, and never fills it again. -/
theorem take_cases (hr : Sound r) (h : outcome (take r m) s = .ok t) :
    Sound t ∧ (t.isEmpty = true ↔
      r.isEmpty = true ∨ ∃ key, m = .subscript key ∧ ¬HasElement r.root key) := by
  cases m with
  | path p =>
      obtain ⟨hfrom, hto⟩ := whole_of_readerAt hr h
      rw [isEmpty_eq_false_of_whole hto, isEmpty_eq_false_of_whole hfrom]
      refine ⟨Or.inr hto, iff_of_false nofun ?_⟩
      rintro (hempty | ⟨key, hkey, -⟩)
      · cases hempty
      · cases hkey
  | subscript key =>
      rw [outcome_take_subscript_eq_ok_iff] at h
      rcases subscript_cases h with ⟨helement, hwhole⟩ | ⟨hnone, rfl⟩
      · have hfrom : Whole r.root := by
          rcases hr with hr | hr
          · exact absurd (hr ▸ helement) (not_hasElement_missing key)
          · exact hr
        rw [isEmpty_eq_false_of_whole (hwhole hfrom), isEmpty_eq_false_of_whole hfrom]
        refine ⟨Or.inr (hwhole hfrom), iff_of_false nofun ?_⟩
        rintro (hempty | ⟨key, ⟨⟩, hnone⟩)
        · cases hempty
        · exact hnone helement
      · exact ⟨Or.inl rfl, iff_of_true rfl (Or.inr ⟨key, rfl, hnone⟩)⟩

end Move

section Run

variable {r t u : Reader} {m : Move} {moves : List Move} {s : Session}

theorem derive_cons (r : Reader) (m : Move) (moves : List Move) :
    derive r (m :: moves) = take r m >>= (derive · moves) :=
  List.foldlM_cons

theorem misses_nil : ¬Misses r [] s := by
  rintro ⟨before, key, after, u, hsplit, -⟩
  cases before <;> cases hsplit

theorem misses_cons_iff (h : outcome (take r m) s = .ok u) :
    Misses r (m :: moves) s ↔
      (∃ key, m = .subscript key ∧ ¬HasElement r.root key) ∨
        Misses u moves (final (take r m) s) := by
  have hrun : ∀ rest, outcome (derive r (m :: rest)) s =
      outcome (derive u rest) (final (take r m) s) := by
    intro rest
    rw [derive_cons, Session.outcome_bind, h]
  constructor
  · rintro ⟨before, key, after, v, hsplit, hv, hnone⟩
    cases before with
    | nil =>
        cases hsplit
        cases hv
        exact Or.inl ⟨key, rfl, hnone⟩
    | cons first before =>
        cases hsplit
        rw [hrun] at hv
        exact Or.inr ⟨before, key, after, v, rfl, hv, hnone⟩
  · rintro (⟨key, rfl, hnone⟩ | ⟨before, key, after, v, rfl, hv, hnone⟩)
    · exact ⟨[], key, moves, r, rfl, rfl, hnone⟩
    · exact ⟨m :: before, key, after, v, rfl, (hrun before).trans hv, hnone⟩

theorem isEmpty_derive_iff (hr : Sound r) (h : outcome (derive r moves) s = .ok t) :
    t.isEmpty = true ↔ r.isEmpty = true ∨ Misses r moves s := by
  induction moves generalizing r s with
  | nil =>
      cases h
      exact (or_iff_left misses_nil).symm
  | cons m moves ih =>
      rw [derive_cons, Session.outcome_bind] at h
      cases hu : outcome (take r m) s with
      | error e =>
          rw [hu] at h
          cases h
      | ok u =>
          rw [hu] at h
          obtain ⟨hsound, hempty⟩ := take_cases hr hu
          rw [ih hsound h, hempty, misses_cons_iff hu, or_assoc]

end Run

section Fetch

variable {r : Reader}

theorem cause_ne_missingValue_of_resolve {root : Value} {p : Path} {f : TraversalFault}
    (h : resolve root p = .error f) : f.cause ≠ .missingValue := by
  obtain ⟨b, -, rfl⟩ := mapError_eq_error_iff.mp h
  rw [TraversalFault.ofBlocked]
  intro hcause
  cases hobstacle : b.obstacle with
  | wrongKind expected actual =>
      rw [hobstacle] at hcause
      cases hcause
  | noElement =>
      rw [hobstacle] at hcause
      cases hcause

theorem missingValue_iff (hr : Sound r) (p : Path) (expected : Expected)
    (substitute : Value) (s : Session) :
    (∃ f, outcome (r.valueAt (.path p) expected substitute) s = .error (.traversal f) ∧
        f.cause = .missingValue) ↔
      r.root = .missing ∧ ∀ step ∈ p.steps, step = .here := by
  rw [outcome_valueAt]
  constructor
  · rintro ⟨f, hf, hcause⟩
    rcases resolve_cases r.root p with ⟨g, hg⟩ | ⟨trail, hv⟩ | ⟨v, trail, hv, hpresent⟩
    · rw [fetch_of_error hg] at hf
      cases hf
      exact absurd hcause (cause_ne_missingValue_of_resolve hg)
    · rw [resolve_eq_ok_iff] at hv
      rcases hr with hr | hr
      · rw [hr] at hv
        exact ⟨hr, forall_here_of_walk_missing hv⟩
      · exact absurd rfl (whole_of_walk hr hv).ne_missing
    · rw [fetch_of_present hv hpresent, handOut] at hf
      split at hf
      · cases hf
      · cases hf
      · cases hf
        cases hcause
  · rintro ⟨hroot, hhere⟩
    have hv := walk_of_forall_here hhere .missing
    rw [← hroot, ← resolve_eq_ok_iff, hroot] at hv
    rw [hroot, fetch_of_missing hv]
    exact ⟨_, rfl, rfl⟩

theorem valueAt_ne_missing (path : PathArgument) (expected : Expected)
    (substitute : Value) (s : Session) :
    outcome (r.valueAt path expected substitute) s ≠ .ok .missing := by
  intro h
  obtain ⟨p, hp⟩ := exists_fetch_of_valueAt h
  obtain ⟨v, -, -, hpresent, hcoerce⟩ := exists_present_of_fetch hp
  exact Expected.ne_missing_of_coerce? (substituteNull_ne_missing hpresent) hcoerce rfl

theorem outcome_ofDocument (data : Value) (fragments : Option Bool) (s : Session) :
    outcome (Reader.ofDocument data fragments) s =
      match Json.readDocument (fragments.getD s.settings.fragments) data with
      | .ok root => .ok ⟨root⟩
      | .error e => .error (Failure.ofReadError e) := by
  rw [Reader.ofDocument, Session.outcome_bind, Session.outcome_get]
  dsimp only
  cases Json.readDocument (fragments.getD s.settings.fragments) data <;> rfl

theorem whole_of_ofDocument {data : Value} {fragments : Option Bool} {s : Session}
    (h : outcome (Reader.ofDocument data fragments) s = .ok r) : Whole r.root := by
  rw [outcome_ofDocument] at h
  split at h
  · rename_i root hroot
    cases h
    exact whole_of_readDocument hroot
  · cases h

end Fetch

/-- Over a root without gaps a value is missing exactly if the root is and the path stays
there, and a reader that comes of others is empty exactly if the first was or a subscript
led nowhere. No value that is handed out is the absent one. -/
theorem absence_is_never_null (r : Reader) (s : Session) :
    (r.root = .missing ∨ Whole r.root →
      (∀ p expected substitute,
        (∃ f, outcome (r.valueAt (.path p) expected substitute) s =
            .error (.traversal f) ∧ f.cause = .missingValue) ↔
          r.root = .missing ∧ ∀ step ∈ p.steps, step = .here) ∧
      ∀ moves t, outcome (derive r moves) s = .ok t →
        (t.isEmpty = true ↔ r.isEmpty = true ∨ Misses r moves s)) ∧
    (∀ path expected substitute,
      outcome (r.valueAt path expected substitute) s ≠ .ok .missing) ∧
    (∀ path t, outcome (r.readerAt path) s = .ok t → t.isEmpty = false) ∧
    ∀ data fragments t, outcome (Reader.ofDocument data fragments) s = .ok t →
      Whole t.root := by
  refine ⟨fun hr => ⟨?_, ?_⟩, ?_, ?_, ?_⟩
  · exact fun p expected substitute => missingValue_iff hr p expected substitute s
  · exact fun moves t => isEmpty_derive_iff hr
  · exact fun path expected substitute => valueAt_ne_missing path expected substitute s
  · exact fun path t => isEmpty_eq_false_of_readerAt
  · exact fun data fragments t => whole_of_ofDocument

theorem absence_is_never_null_past_null :
    let root : Value := .map [("a", .list [.null])]
    let a : Move := .path (.path ⟨[.key "a"]⟩)
    let last : Move := .subscript (.int (-1))
    let past : Move := .subscript (.int 1)
    let nowhere : Move := .subscript (.str "b")
    Whole root ∧
      outcome (derive ⟨root⟩ [a, last]) {} = .ok ⟨.null⟩ ∧
      ¬Misses ⟨root⟩ [a, last] {} ∧
      outcome (derive ⟨root⟩ [a, past, nowhere]) {} = .ok Reader.empty ∧
      Misses ⟨root⟩ [a, past, nowhere] {} ∧
      Reader.empty.root = .missing ∧
      (∃ f, outcome (Reader.empty.valueAt (.path ⟨[.here, .here]⟩) (.type .int)
        (.int 7)) {} = .error (.traversal f) ∧ f.cause = .missingValue) ∧
      ¬∃ f, outcome (Reader.valueAt ⟨root⟩ (.path ⟨[.key "a", .key "b"]⟩) .anything
        .missing) {} = .error (.traversal f) ∧ f.cause = .missingValue := by
  intro root a last past nowhere
  have hroot : Whole root := by
    refine whole_map (List.forall_mem_singleton.mpr (whole_list ?_))
    exact List.forall_mem_singleton.mpr (whole_of_scalar nofun rfl rfl)
  obtain ⟨hmissing, hderived⟩ := (absence_is_never_null ⟨root⟩ {}).1 (Or.inr hroot)
  obtain ⟨hempty, -⟩ := (absence_is_never_null Reader.empty {}).1 (Or.inl rfl)
  refine ⟨hroot, rfl, ?_, rfl, ?_, rfl, (hempty _ _ _).mpr ⟨rfl, by simp⟩, ?_⟩
  · intro hmisses
    cases (hderived [a, last] _ rfl).mpr (Or.inr hmisses)
  · exact ((hderived [a, past, nowhere] _ rfl).mp rfl).resolve_left nofun
  · intro hfault
    cases ((hmissing _ _ _).mp hfault).1

end TreePath.Absence
