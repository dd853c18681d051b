import Mathlib.Data.List.Forall2
import TreePath.Proofs.Memo.Run
import TreePath.Proofs.Reading.Numeral
import TreePath.Proofs.Result
import TreePath.Proofs.Session.Configuring

namespace TreePath.Settings

open TreePath.Configuring
open TreePath.Grammar
open TreePath.Memo (LegalBound create_eq_ok_iff legalBound_none)
open TreePath.Numeral (digitValue digitValue_lt digitChar_digitValue ofDigitChars_cons_digit)
open TreePath.Result
open TreePath.RoundTrip (isDigit_of_mem_natDigits)
open TreePath.Session (outcome)

/-- Names with their texts. Of several texts under one name the first counts. -/
abbrev Environment :=
  List (String × String)

/-- What a variable gives: what its text is read as, and the default if it is absent. -/
def Gives {α : Type} (read : String → Except SettingFlaw α) (default : α) :
    Option String → α → Prop
  | none, a => a = default
  | some text, a => read text = .ok a

/-- The texts differ in nothing but blanks at their ends. -/
def SameButBlanks (text other : String) : Prop :=
  ∃ left core right left' right' : List Char,
    (∀ c ∈ left ++ right ++ left' ++ right', Text.isBlank c = true) ∧
      text.toList = left ++ core ++ right ∧ other.toList = left' ++ core ++ right'

/-- The same names in the same order, under texts that differ in nothing but blanks at
their ends. -/
def Alike (environment other : Environment) : Prop :=
  List.Forall₂ (fun e e' => e.1 = e'.1 ∧ SameButBlanks e.2 e'.2) environment other

section Strip

variable {left right : List Char}

theorem strip_append_left (hleft : ∀ c ∈ left, Text.isBlank c = true) (core : List Char) :
    Text.strip (left ++ core) = Text.strip core := by
  rw [Text.strip, Text.strip, List.dropWhile_append_of_pos hleft]

theorem strip_append_right (hright : ∀ c ∈ right, Text.isBlank c = true) (core : List Char) :
    Text.strip (core ++ right) = Text.strip core := by
  have hback : ∀ c ∈ right.reverse, Text.isBlank c = true := by
    intro c hc
    exact hright c (List.mem_reverse.mp hc)
  have hnone : right.dropWhile Text.isBlank = [] := List.dropWhile_eq_nil_iff.mpr hright
  rw [Text.strip, Text.strip, List.dropWhile_append]
  split
  · rename_i hcore
    rw [hnone, List.isEmpty_iff.mp hcore]
  · rw [List.reverse_append, List.dropWhile_append_of_pos hback]

theorem strip_eq_of_sameButBlanks {text other : String} (h : SameButBlanks text other) :
    Text.strip text.toList = Text.strip other.toList := by
  obtain ⟨left, core, right, left', right', hblank, htext, hother⟩ := h
  simp only [List.forall_mem_append] at hblank
  obtain ⟨⟨⟨hleft, hright⟩, hleft'⟩, hright'⟩ := hblank
  rw [htext, hother, strip_append_right hright, strip_append_right hright',
    strip_append_left hleft, strip_append_left hleft']

theorem strip_of_forall {s : List Char} (h : ∀ c ∈ s, Text.isBlank c = false) :
    Text.strip s = s := by
  have hback : ∀ t : List Char, (∀ c ∈ t, Text.isBlank c = false) →
      t.dropWhile Text.isBlank = t := by
    rintro (_ | ⟨c, t⟩) ht
    · rfl
    · rw [List.dropWhile_cons, ht c List.mem_cons_self, if_neg Bool.false_ne_true]
  rw [Text.strip, hback s h, hback s.reverse fun c hc => h c (List.mem_reverse.mp hc),
    List.reverse_reverse]

end Strip

section Text

variable {text other : String}

theorem word_congr (h : Text.strip text.toList = Text.strip other.toList) :
    word text = word other := by
  rw [word, word, h]

theorem readBound_congr (h : Text.strip text.toList = Text.strip other.toList) :
    readBound text = readBound other := by
  have hnumber : looseInt? text.toList = looseInt? other.toList := by
    rw [looseInt?, looseInt?, h]
  rw [readBound, readBound, word_congr h, hnumber]

theorem readLevel_congr (h : Text.strip text.toList = Text.strip other.toList) :
    readLevel text = readLevel other := by
  rw [readLevel, readLevel, h]

theorem readFragments_congr (h : Text.strip text.toList = Text.strip other.toList) :
    readFragments text = readFragments other := by
  rw [readFragments, readFragments, word_congr h]

theorem legalBound_of_readBound {bound : Option Int} (h : readBound text = .ok bound) :
    LegalBound bound := by
  rw [readBound] at h
  split at h
  · cases h
    exact legalBound_none
  · split at h
    · cases h
    · rename_i n _
      split at h
      · cases h
      · cases h
        rintro m ⟨⟩
        omega

theorem levelNumber?_of_readLevel {name : String} (h : readLevel text = .ok name) :
    ∃ n, levelNumber? name = some n := by
  rw [readLevel] at h
  split at h
  · rename_i n hn
    cases h
    exact ⟨n, hn⟩
  · cases h

theorem upper_of_levelNumber? {name : String} {n : Int} (h : levelNumber? name = some n) :
    String.ofList (Text.upper name.toList) = name := by
  have hall : ∀ e ∈ levelNumbers, String.ofList (Text.upper e.1.toList) = e.1 := by
    decide +kernel
  obtain ⟨before, behind, hnumbers, -⟩ := List.lookup_eq_some_iff.mp h
  refine hall (name, n) ?_
  rw [hnumbers]
  exact List.mem_append_right before List.mem_cons_self

theorem exists_denotes_of_levelNumber? {name : String} (h : ∃ n, levelNumber? name = some n) :
    ∃ n, Denotes (.str name) n := by
  obtain ⟨n, hn⟩ := h
  refine ⟨n, .name ?_⟩
  rwa [upper_of_levelNumber? hn]

end Text

section Digits

variable {ds : List Char}

theorem of_isDigit (p : Char → Prop) (hp : ∀ d < 10, p d.digitChar) {c : Char}
    (hc : IsDigit c) : p c := by
  rw [← digitChar_digitValue hc]
  exact hp _ (digitValue_lt hc)

theorem isBlank_of_isDigit {c : Char} (h : IsDigit c) : Text.isBlank c = false :=
  of_isDigit (fun c => Text.isBlank c = false) (by decide) h

theorem toLower_of_isDigit {c : Char} (h : IsDigit c) : c.toLower = c :=
  of_isDigit (fun c => c.toLower = c) (by decide) h

theorem digitValue?_of_isDigit {c : Char} (h : IsDigit c) :
    Text.digitValue? c = some (digitValue c) :=
  of_isDigit (fun c => Text.digitValue? c = some (digitValue c)) (by decide) h

theorem strip_of_isDigit (hds : ∀ c ∈ ds, IsDigit c) : Text.strip ds = ds :=
  strip_of_forall fun c hc => isBlank_of_isDigit (hds c hc)

theorem word_of_isDigit (hds : ∀ c ∈ ds, IsDigit c) :
    word (String.ofList ds) = String.ofList ds := by
  rw [word, String.toList_ofList, strip_of_isDigit hds]
  have hlower : ds.map Char.toLower = ds.map id :=
    List.map_congr_left fun c hc => toLower_of_isDigit (hds c hc)
  rw [hlower, List.map_id]

theorem ungroupedDigits?_of_isDigit (hne : ds ≠ []) (hds : ∀ c ∈ ds, IsDigit c) :
    ungroupedDigits? ds = some (ds.map digitValue) := by
  induction ds with
  | nil => exact absurd rfl hne
  | cons c ds ih =>
      obtain ⟨hc, hrest⟩ := List.forall_mem_cons.mp hds
      cases ds with
      | nil =>
          rw [ungroupedDigits?, digitValue?_of_isDigit hc]
          rfl
      | cons d ds =>
          have hd : d ≠ '_' := by
            rintro rfl
            exact absurd (hrest '_' List.mem_cons_self) (by decide)
          rw [ungroupedDigits?, digitValue?_of_isDigit hc, ih (List.cons_ne_nil d ds) hrest]
          · rfl
          · rintro ⟨⟩
          · intro rest hsep
            exact hd (List.cons.inj hsep).1

theorem foldl_digitValue (ds : List Char) (n : Nat) :
    (ds.map digitValue).foldl (fun n d => 10 * n + d) n = Nat.ofDigitChars 10 ds n := by
  induction ds generalizing n with
  | nil => rfl
  | cons d ds ih => rw [List.map_cons, List.foldl_cons, ih, ofDigitChars_cons_digit]

theorem looseInt?_of_isDigit (hne : ds ≠ []) (hds : ∀ c ∈ ds, IsDigit c)
    (hlength : ds.length ≤ digitLimit) : looseInt? ds = some (Numeral.ofDigits ds : Int) := by
  have hmagnitude : looseInt?.magnitude? ds = some (Numeral.ofDigits ds) := by
    rw [looseInt?.magnitude?, ungroupedDigits?_of_isDigit hne hds, Option.bind_eq_bind,
      Option.bind_some, List.length_map, if_neg (Nat.not_lt.mpr hlength), foldl_digitValue]
    rfl
  rw [looseInt?, strip_of_isDigit hds]
  split
  · exact absurd (hds '-' List.mem_cons_self) (by decide)
  · exact absurd (hds '+' List.mem_cons_self) (by decide)
  · rw [hmagnitude]
    rfl

theorem ofDigits_zeros_append (k : Nat) (ds : List Char) :
    Numeral.ofDigits (Decimal.zeros k ++ ds) = Numeral.ofDigits ds := by
  induction k with
  | zero => rfl
  | succ k ih =>
      rw [← ih, Decimal.zeros, List.replicate_succ, List.cons_append, Numeral.ofDigits,
        ofDigitChars_cons_digit]
      rfl

theorem isDigit_of_mem_padded {k n : Nat} :
    ∀ c ∈ Decimal.zeros k ++ Decimal.natDigits n, IsDigit c := by
  intro c hc
  rcases List.mem_append.mp hc with hzero | hdigit
  · rw [List.eq_of_mem_replicate hzero]
    decide
  · exact isDigit_of_mem_natDigits c hdigit

theorem readBound_padded {k n : Nat} (hn : 1 ≤ n)
    (hlength : k + (Decimal.natDigits n).length ≤ digitLimit) :
    readBound (String.ofList (Decimal.zeros k ++ Decimal.natDigits n)) = .ok (some n) := by
  have hds := isDigit_of_mem_padded (k := k) (n := n)
  have hne : Decimal.zeros k ++ Decimal.natDigits n ≠ [] :=
    List.append_ne_nil_of_right_ne_nil _ Nat.toDigits_ne_nil
  have hshort : (Decimal.zeros k ++ Decimal.natDigits n).length ≤ digitLimit := by
    rwa [List.length_append, Decimal.zeros, List.length_replicate]
  have hvalue : Numeral.ofDigits (Decimal.natDigits n) = n := Nat.ofDigitChars_ten_toDigits
  have hword : ¬ (word (String.ofList (Decimal.zeros k ++ Decimal.natDigits n)) = "" ∨
      word (String.ofList (Decimal.zeros k ++ Decimal.natDigits n)) = "none") := by
    rw [word_of_isDigit hds]
    rintro (h | h)
    · exact hne (String.ofList_eq_empty_iff.mp h)
    · have hnone : Decimal.zeros k ++ Decimal.natDigits n = "none".toList := by
        rw [← h, String.toList_ofList]
      rw [hnone] at hds
      exact absurd (hds 'n' (by decide)) (by decide)
  rw [readBound, if_neg hword, String.toList_ofList, looseInt?_of_isDigit hne hds hshort,
    ofDigits_zeros_append, hvalue]
  exact if_neg (by omega)

end Digits

section Variable

variable {α : Type} {environment other : Environment} {name : String}
  {read : String → Except SettingFlaw α} {default a : α}

theorem readVariable_eq_ok_iff :
    readVariable environment name read default = .ok a ↔
      Gives read default (environment.lookup name) a := by
  unfold readVariable
  cases environment.lookup name with
  | none =>
      rw [Except.ok.injEq]
      exact eq_comm
  | some text => exact mapError_eq_ok_iff

theorem of_gives (p : α → Prop) {text? : Option String} (h : Gives read default text? a)
    (hdefault : p default) (hread : ∀ {text : String} {a : α}, read text = .ok a → p a) :
    p a := by
  cases text? with
  | none =>
      rw [show a = default from h]
      exact hdefault
  | some text => exact hread h

theorem text_of_readVariable {f : SettingFault}
    (h : readVariable environment name read default = .error f) :
    f.name = name ∧ environment.lookup name = some f.text ∧ read f.text = .error f.flaw := by
  unfold readVariable at h
  split at h
  · cases h
  · rename_i text htext
    obtain ⟨flaw, hread, rfl⟩ := mapError_eq_error_iff.mp h
    exact ⟨rfl, htext, hread⟩

theorem ofEnvironment_eq_ok_iff {s : Settings} :
    ofEnvironment environment = .ok s ↔
      Gives readBound none (environment.lookup boundVariable) s.memoBound ∧
      Gives readLevel "WARNING" (environment.lookup levelVariable) s.level ∧
      Gives readFragments false (environment.lookup fragmentsVariable) s.fragments := by
  rw [← readVariable_eq_ok_iff, ← readVariable_eq_ok_iff, ← readVariable_eq_ok_iff, ofEnvironment]
  constructor
  · intro h
    obtain ⟨bound, hbound, h⟩ := bind_eq_ok_iff.mp h
    obtain ⟨level, hlevel, h⟩ := bind_eq_ok_iff.mp h
    obtain ⟨fragments, hfragments, h⟩ := bind_eq_ok_iff.mp h
    cases h
    exact ⟨hbound, hlevel, hfragments⟩
  · rintro ⟨hbound, hlevel, hfragments⟩
    exact bind_eq_ok_iff.mpr ⟨_, hbound, bind_eq_ok_iff.mpr ⟨_, hlevel,
      bind_eq_ok_iff.mpr ⟨_, hfragments, rfl⟩⟩⟩

theorem text_of_ofEnvironment {f : SettingFault} (h : ofEnvironment environment = .error f) :
    environment.lookup f.name = some f.text := by
  rw [ofEnvironment] at h
  rcases bind_eq_error_iff.mp h with h | ⟨bound, -, h⟩
  · obtain ⟨hname, htext, -⟩ := text_of_readVariable h
    rwa [hname]
  rcases bind_eq_error_iff.mp h with h | ⟨level, -, h⟩
  · obtain ⟨hname, htext, -⟩ := text_of_readVariable h
    rwa [hname]
  rcases bind_eq_error_iff.mp h with h | ⟨fragments, -, h⟩
  · obtain ⟨hname, htext, -⟩ := text_of_readVariable h
    rwa [hname]
  · cases h

end Variable

section Alike

variable {environment other : Environment}

theorem lookup_alike (h : Alike environment other) (name : String) :
    Option.Rel SameButBlanks (environment.lookup name) (other.lookup name) := by
  induction h with
  | nil => exact .none
  | @cons e e' rest rest' he _ ih =>
      rw [List.lookup_cons, List.lookup_cons, ← he.1]
      split
      · exact .some he.2
      · exact ih

theorem gives_iff_of_rel {α : Type} {read : String → Except SettingFlaw α} {default a : α}
    (hread : ∀ {text other : String}, Text.strip text.toList = Text.strip other.toList →
      read text = read other) {text? other? : Option String}
    (h : Option.Rel SameButBlanks text? other?) :
    Gives read default text? a ↔ Gives read default other? a := by
  cases h with
  | none => exact Iff.rfl
  | some hsame => rw [Gives, Gives, hread (strip_eq_of_sameButBlanks hsame)]

theorem ofEnvironment_alike (h : Alike environment other) (s : Settings) :
    ofEnvironment environment = .ok s ↔ ofEnvironment other = .ok s := by
  rw [ofEnvironment_eq_ok_iff, ofEnvironment_eq_ok_iff,
    gives_iff_of_rel readBound_congr (lookup_alike h _),
    gives_iff_of_rel readLevel_congr (lookup_alike h _),
    gives_iff_of_rel readFragments_congr (lookup_alike h _)]

end Alike

section Accepted

variable {environment : Environment} {s : Settings}

theorem legalBound_of_ofEnvironment (h : ofEnvironment environment = .ok s) :
    LegalBound s.memoBound := by
  obtain ⟨hbound, -, -⟩ := ofEnvironment_eq_ok_iff.mp h
  exact of_gives LegalBound hbound legalBound_none legalBound_of_readBound

theorem exists_denotes_of_ofEnvironment (h : ofEnvironment environment = .ok s) :
    ∃ n, Denotes (.str s.level) n := by
  obtain ⟨-, hlevel, -⟩ := ofEnvironment_eq_ok_iff.mp h
  exact exists_denotes_of_levelNumber? (of_gives (fun name => ∃ n, levelNumber? name = some n)
    hlevel ⟨30, rfl⟩ levelNumber?_of_readLevel)

theorem ofEnvironment_cons_bound {text : String} {bound : Option Int}
    (h : ofEnvironment environment = .ok s) (hread : readBound text = .ok bound) :
    ofEnvironment ((boundVariable, text) :: environment) =
      .ok { s with memoBound := bound } := by
  obtain ⟨-, hlevel, hfragments⟩ := ofEnvironment_eq_ok_iff.mp h
  have hapart : levelVariable ≠ boundVariable ∧ fragmentsVariable ≠ boundVariable := by decide
  rw [ofEnvironment_eq_ok_iff, List.lookup_cons_self, List.lookup_cons, List.lookup_cons,
    beq_false_of_ne hapart.1, beq_false_of_ne hapart.2]
  exact ⟨hread, hlevel, hfragments⟩

end Accepted

/-- An environment is refused for the text of one of its variables, or accepted: then a memo
can be made with the bound, and the logger configured with the level. Each setting is what
its own variable gives, blanks at the ends of the text aside. -/
theorem accepted_environments_serve_later (environment : Environment) :
    ((∃ f, ofEnvironment environment = .error f ∧ environment.lookup f.name = some f.text) ∨
      ∃ s, ofEnvironment environment = .ok s ∧
        (∃ memo : PathMemo, Memo.create s.memoBound = .ok memo) ∧
        ∀ session : Session,
          outcome (Session.configure (.str s.level)) session = .ok ⟨⟩ ∧
          (session.settings = s → outcome (Session.configure .null) session = .ok ⟨⟩)) ∧
    (∀ s, ofEnvironment environment = .ok s ↔
      Gives readBound none (environment.lookup boundVariable) s.memoBound ∧
      Gives readLevel "WARNING" (environment.lookup levelVariable) s.level ∧
      Gives readFragments false (environment.lookup fragmentsVariable) s.fragments) ∧
    (∀ other, Alike environment other →
      ∀ s, ofEnvironment environment = .ok s ↔ ofEnvironment other = .ok s) ∧
    ∀ k n, 1 ≤ n → k + (Decimal.natDigits n).length ≤ 4300 →
      ∀ s, ofEnvironment environment = .ok s →
        ofEnvironment
            ((boundVariable, String.ofList (Decimal.zeros k ++ Decimal.natDigits n)) ::
              environment) =
          .ok { s with memoBound := some (n : Int) } := by
  refine ⟨?_, fun s => ofEnvironment_eq_ok_iff, fun other h => ofEnvironment_alike h, ?_⟩
  · cases henvironment : ofEnvironment environment with
    | error f => exact Or.inl ⟨f, rfl, text_of_ofEnvironment henvironment⟩
    | ok s =>
        obtain ⟨n, hn⟩ := exists_denotes_of_ofEnvironment henvironment
        have hlevel := levelOf_eq_ok_iff.mpr hn
        refine Or.inr ⟨s, rfl, ?_, fun session => ⟨?_, ?_⟩⟩
        · exact ⟨_, create_eq_ok_iff.mpr ⟨legalBound_of_ofEnvironment henvironment, rfl⟩⟩
        · have hgiven : Logger.levelOf (wanted session.settings (.str s.level)) = .ok n := hlevel
          exact (configure_of_ok hgiven).1
        · rintro rfl
          have htaken : Logger.levelOf (wanted session.settings .null) = .ok n := hlevel
          exact (configure_of_ok htaken).1
  · intro k n hn hlength s hs
    exact ofEnvironment_cons_bound hs (readBound_padded hn hlength)

theorem accepted_environments_serve_later_behind_blanks :
    let environment : Environment := [(boundVariable, " 0_07\n"), (levelVariable, "\twarn")]
    let other : Environment := [(boundVariable, "0_07"), (levelVariable, "warn ")]
    let s : Settings := ⟨some 7, "WARN", false⟩
    ofEnvironment environment = .ok s ∧ Alike environment other ∧ ofEnvironment other = .ok s ∧
      (∃ memo : PathMemo, Memo.create s.memoBound = .ok memo) ∧
      outcome (Session.configure .null) { settings := s } = .ok ⟨⟩ ∧
      ofEnvironment ((boundVariable, "0012") :: environment) =
        .ok { s with memoBound := some 12 } := by
  intro environment other s
  have hs : ofEnvironment environment = .ok s := by decide +kernel
  have halike : Alike environment other := by
    refine .cons ⟨rfl, ?_⟩ (.cons ⟨rfl, ?_⟩ .nil)
    · exact ⟨[' '], "0_07".toList, ['\n'], [], [], List.all_eq_true.mp (by decide), rfl, rfl⟩
    · exact ⟨['\t'], "warn".toList, [], [], [' '], List.all_eq_true.mp (by decide), rfl, rfl⟩
  obtain ⟨hserve, -, hblanks, hdigits⟩ := accepted_environments_serve_later environment
  refine ⟨hs, halike, (hblanks other halike s).mp hs, ?_⟩
  rcases hserve with ⟨f, hf, -⟩ | ⟨s', hs', hmemo, hconfigure⟩
  · cases hs.symm.trans hf
  · cases hs.symm.trans hs'
    exact ⟨hmemo, (hconfigure { settings := s }).2 rfl,
      hdigits 2 12 (by decide) (by decide) s hs⟩

end TreePath.Settings
