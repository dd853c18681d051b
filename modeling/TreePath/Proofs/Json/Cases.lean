import TreePath.Json.Reading

/-!
The ways in which the three readers that call one another end, one relation for each
of them. What is proved of the readers by following their calls is proved along these.
-/

namespace TreePath.Json

/-- The words, and the values that are written so. -/
def words : List (List Char × Value) :=
  [(['n', 'u', 'l', 'l'], .null),
    (['t', 'r', 'u', 'e'], .bool true),
    (['f', 'a', 'l', 's', 'e'], .bool false),
    (['N', 'a', 'N'], .float (0.0 / 0.0)),
    (['I', 'n', 'f', 'i', 'n', 'i', 't', 'y'], .float (1.0 / 0.0)),
    (['-', 'I', 'n', 'f', 'i', 'n', 'i', 't', 'y'], .float (-(1.0 / 0.0)))]

theorem mem_words_of_readWord? {s rest : List Char} {v : Value}
    (h : readWord? s = some (v, rest)) : ∃ word, (word, v) ∈ words ∧ s = word ++ rest := by
  unfold readWord? at h
  split at h <;> cases h
  · exact ⟨_, List.mem_of_getElem? (i := 0) rfl, rfl⟩
  · exact ⟨_, List.mem_of_getElem? (i := 1) rfl, rfl⟩
  · exact ⟨_, List.mem_of_getElem? (i := 2) rfl, rfl⟩
  · exact ⟨_, List.mem_of_getElem? (i := 3) rfl, rfl⟩
  · exact ⟨_, List.mem_of_getElem? (i := 4) rfl, rfl⟩
  · exact ⟨_, List.mem_of_getElem? (i := 5) rfl, rfl⟩

/-- A member's key and its colon stand at the front, and behind them the text `inner`. -/
def KeyBefore (s key inner : List Char) : Prop :=
  ∃ quoted behindKey behindColon, s = '"' :: quoted ∧
    readText s [] quoted = .ok (key, behindKey) ∧
    skipBlanks behindKey = ':' :: behindColon ∧ inner = skipBlanks behindColon

inductive ValueRead (s : List Char) : Except Halt (Value × Rest s) → Prop where
  | nothing (hs : s = []) : ValueRead s (.error (.flawed .valueExpected []))
  | textHalted {inner : List Char} {e : Halt} (hs : s = '"' :: inner)
      (h : readText s [] inner = .error e) : ValueRead s (.error e)
  | text {inner text : List Char} {rest : Rest s} (hs : s = '"' :: inner)
      (h : readText s [] inner = .ok (text, rest.1)) :
      ValueRead s (.ok (.str (String.ofList text), rest))
  | emptyList {inner : List Char} {rest : Rest s} (hs : s = '[' :: inner)
      (h : skipBlanks inner = ']' :: rest.1) : ValueRead s (.ok (.list [], rest))
  | listHalted {inner : List Char} {e : Halt} (hs : s = '[' :: inner)
      (hopen : (skipBlanks inner).head? ≠ some ']')
      (h : readItems (skipBlanks inner) = .error e) : ValueRead s (.error e)
  | list {inner : List Char} {items : List Value} {after : Rest (skipBlanks inner)}
      {rest : Rest s} (hs : s = '[' :: inner)
      (hopen : (skipBlanks inner).head? ≠ some ']')
      (h : readItems (skipBlanks inner) = .ok (items, after)) (hrest : rest.1 = after.1) :
      ValueRead s (.ok (.list items, rest))
  | emptyMap {inner : List Char} {rest : Rest s} (hs : s = '\x7b' :: inner)
      (h : skipBlanks inner = '\x7d' :: rest.1) : ValueRead s (.ok (.map [], rest))
  | mapHalted {inner : List Char} {e : Halt} (hs : s = '\x7b' :: inner)
      (hopen : (skipBlanks inner).head? ≠ some '\x7d')
      (h : readMembers (skipBlanks inner) = .error e) : ValueRead s (.error e)
  | map {inner : List Char} {members : List (String × Value)}
      {after : Rest (skipBlanks inner)} {rest : Rest s} (hs : s = '\x7b' :: inner)
      (hopen : (skipBlanks inner).head? ≠ some '\x7d')
      (h : readMembers (skipBlanks inner) = .ok (members, after))
      (hrest : rest.1 = after.1) : ValueRead s (.ok (.map (entriesOf members), rest))
  | scalarHalted {c : Char} {inner : List Char} {e : Halt} (hs : s = c :: inner)
      (hc : c ≠ '"' ∧ c ≠ '[' ∧ c ≠ '\x7b') (h : readScalar s = .error e) :
      ValueRead s (.error e)
  | scalar {c : Char} {inner : List Char} {v : Value} {rest : Rest s} (hs : s = c :: inner)
      (hc : c ≠ '"' ∧ c ≠ '[' ∧ c ≠ '\x7b') (h : readScalar s = .ok (v, rest.1)) :
      ValueRead s (.ok (v, rest))

inductive ItemsRead (s : List Char) : Except Halt (List Value × Rest s) → Prop where
  | halted {e : Halt} (h : readValue s = .error e) : ItemsRead s (.error e)
  | last {v : Value} {behind rest : Rest s} (hv : readValue s = .ok (v, behind))
      (hend : skipBlanks behind.1 = ']' :: rest.1) : ItemsRead s (.ok ([v], rest))
  | noComma {v : Value} {behind : Rest s} (hv : readValue s = .ok (v, behind))
      (hcomma : (skipBlanks behind.1).head? ≠ some ',') :
      ItemsRead s (.error (.flawed .commaExpected (skipBlanks behind.1)))
  | moreHalted {v : Value} {behind : Rest s} {more : List Char} {e : Halt}
      (hv : readValue s = .ok (v, behind)) (hcomma : skipBlanks behind.1 = ',' :: more)
      (h : readItems (skipBlanks more) = .error e) : ItemsRead s (.error e)
  | more {v : Value} {behind rest : Rest s} {more : List Char} {vs : List Value}
      {after : Rest (skipBlanks more)} (hv : readValue s = .ok (v, behind))
      (hcomma : skipBlanks behind.1 = ',' :: more)
      (h : readItems (skipBlanks more) = .ok (vs, after)) (hrest : rest.1 = after.1) :
      ItemsRead s (.ok (v :: vs, rest))

inductive MembersRead (s : List Char) :
    Except Halt (List (String × Value) × Rest s) → Prop where
  | noKey (h : s.head? ≠ some '"') : MembersRead s (.error (.flawed .keyExpected s))
  | keyHalted {quoted : List Char} {e : Halt} (hs : s = '"' :: quoted)
      (h : readText s [] quoted = .error e) : MembersRead s (.error e)
  | noColon {quoted key behindKey : List Char} (hs : s = '"' :: quoted)
      (h : readText s [] quoted = .ok (key, behindKey))
      (hcolon : (skipBlanks behindKey).head? ≠ some ':') :
      MembersRead s (.error (.flawed .colonExpected (skipBlanks behindKey)))
  | halted {key inner : List Char} {e : Halt} (hkey : KeyBefore s key inner)
      (h : readValue inner = .error e) : MembersRead s (.error e)
  | last {key inner : List Char} {v : Value} {behind : Rest inner} {rest : Rest s}
      (hkey : KeyBefore s key inner) (hv : readValue inner = .ok (v, behind))
      (hend : skipBlanks behind.1 = '\x7d' :: rest.1) :
      MembersRead s (.ok ([(String.ofList key, v)], rest))
  | noComma {key inner : List Char} {v : Value} {behind : Rest inner}
      (hkey : KeyBefore s key inner) (hv : readValue inner = .ok (v, behind))
      (hcomma : (skipBlanks behind.1).head? ≠ some ',') :
      MembersRead s (.error (.flawed .commaExpected (skipBlanks behind.1)))
  | moreHalted {key inner more : List Char} {v : Value} {behind : Rest inner} {e : Halt}
      (hkey : KeyBefore s key inner) (hv : readValue inner = .ok (v, behind))
      (hcomma : skipBlanks behind.1 = ',' :: more)
      (h : readMembers (skipBlanks more) = .error e) : MembersRead s (.error e)
  | more {key inner more : List Char} {v : Value} {behind : Rest inner} {rest : Rest s}
      {members : List (String × Value)} {after : Rest (skipBlanks more)}
      (hkey : KeyBefore s key inner) (hv : readValue inner = .ok (v, behind))
      (hcomma : skipBlanks behind.1 = ',' :: more)
      (h : readMembers (skipBlanks more) = .ok (members, after)) (hrest : rest.1 = after.1) :
      MembersRead s (.ok ((String.ofList key, v) :: members, rest))

section Shorter

variable {s key inner more : List Char} {v : Value}

theorem length_lt_of_keyBefore (h : KeyBefore s key inner) : inner.length < s.length := by
  obtain ⟨quoted, behindKey, behindColon, rfl, hkey, hcolon, rfl⟩ := h
  have hcut := length_skipBlanks_le behindKey
  have hinner := length_skipBlanks_le behindColon
  have hread := length_lt_of_readText hkey
  rw [hcolon] at hcut
  rw [List.length_cons] at hcut ⊢
  omega

theorem length_lt_of_comma {rest : Rest s} (h : skipBlanks rest.1 = ',' :: more) :
    (skipBlanks more).length < s.length := by
  have hcut := length_skipBlanks_le rest.1
  have hmore := length_skipBlanks_le more
  have hrest := rest.2
  rw [h, List.length_cons] at hcut
  omega

theorem length_lt_of_cons {c : Char} (h : s = c :: inner) :
    (skipBlanks inner).length < s.length := by
  rw [h]
  exact Nat.lt_succ_of_le (length_skipBlanks_le inner)

end Shorter

theorem head?_ne_of_forall_ne_cons {c : Char} {s : List Char} (h : ∀ after, s ≠ c :: after) :
    s.head? ≠ some c := by
  intro hs
  obtain ⟨after, rfl⟩ := List.head?_eq_some_iff.mp hs
  exact h after rfl

theorem valueRead : ∀ s, ValueRead s (readValue s)
  | [] => by
      rw [readValue]
      exact .nothing rfl
  | c :: s => by
      rw [readValue]
      split
      · rename_i hc
        subst hc
        split
        · exact .textHalted rfl ‹_›
        · exact .text rfl ‹_›
      · rename_i hquote
        split
        · rename_i hc
          subst hc
          split
          · exact .emptyList rfl ‹_›
          · rename_i hopen
            have hopen := head?_ne_of_forall_ne_cons hopen
            split
            · exact .listHalted rfl hopen ‹_›
            · exact .list rfl hopen ‹_› rfl
        · rename_i hbracket
          split
          · rename_i hc
            subst hc
            split
            · exact .emptyMap rfl ‹_›
            · rename_i hopen
              have hopen := head?_ne_of_forall_ne_cons hopen
              split
              · exact .mapHalted rfl hopen ‹_›
              · exact .map rfl hopen ‹_› rfl
          · rename_i hbrace
            have hc := And.intro hquote (And.intro hbracket hbrace)
            split
            · exact .scalarHalted rfl hc ‹_›
            · exact .scalar rfl hc ‹_›

theorem itemsRead (s : List Char) : ItemsRead s (readItems s) := by
  rw [readItems]
  split
  · exact .halted ‹_›
  · rename_i v behind hv
    dsimp only
    split
    · exact .last hv ‹_›
    · rename_i more hcomma
      split
      · exact .moreHalted hv hcomma ‹_›
      · exact .more hv hcomma ‹_› rfl
    · rename_i hcomma
      exact .noComma hv (head?_ne_of_forall_ne_cons hcomma)

theorem membersRead (s : List Char) : MembersRead s (readMembers s) := by
  unfold readMembers
  split
  · rename_i quoted
    split
    · exact .keyHalted rfl ‹_›
    · rename_i key behindKey hread
      dsimp only
      split
      · rename_i behindColon hcolon
        have hkey : KeyBefore ('"' :: quoted) key (skipBlanks behindColon) :=
          ⟨quoted, behindKey, behindColon, rfl, hread, hcolon, rfl⟩
        split
        · exact .halted hkey ‹_›
        · rename_i v behind hv
          split
          · exact .last hkey hv ‹_›
          · rename_i more hcomma
            split
            · exact .moreHalted hkey hv hcomma ‹_›
            · exact .more hkey hv hcomma ‹_› rfl
          · rename_i hcomma
            exact .noComma hkey hv (head?_ne_of_forall_ne_cons hcomma)
      · rename_i hcolon
        exact .noColon rfl hread (head?_ne_of_forall_ne_cons hcolon)
  · rename_i hquote
    exact .noKey (head?_ne_of_forall_ne_cons hquote)

end TreePath.Json
