import TreePath.Path.Reading

/-!
The grammar of path texts, as a relation between a text and the steps that it
spells. Nothing here reads from left to right: the relation says which texts
are sentences and what they mean, and is independent of how they are read.
-/

namespace TreePath.Grammar

/-- No character of the class stands at the front of the text. -/
def Clear (p : Char → Prop) (rest : List Char) : Prop :=
  ∀ c ∈ rest.head?, ¬ p c

def IsDigit (c : Char) : Prop :=
  '0' ≤ c ∧ c ≤ '9'

def IsHead (c : Char) : Prop :=
  ('A' ≤ c ∧ c ≤ 'Z') ∨ ('a' ≤ c ∧ c ≤ 'z') ∨ c = '$' ∨ c = '_'

def IsBody (c : Char) : Prop :=
  IsHead c ∨ IsDigit c

instance (c : Char) : Decidable (IsDigit c) :=
  inferInstanceAs (Decidable ('0' ≤ c ∧ c ≤ '9'))

instance (c : Char) : Decidable (IsHead c) :=
  inferInstanceAs (Decidable (('A' ≤ c ∧ c ≤ 'Z') ∨ ('a' ≤ c ∧ c ≤ 'z') ∨
    c = '$' ∨ c = '_'))

instance (c : Char) : Decidable (IsBody c) :=
  inferInstanceAs (Decidable (IsHead c ∨ IsDigit c))

/-- A backtick or a single quote. -/
def IsEscapable (c : Char) : Prop :=
  c = backtick ∨ c = Text.singleQuote

/-- The text between two quotes, and the key that it stands for. A lone
backtick is one that neither a quote nor a backtick follows; so it is never
the last character, since the closing quote would follow it. -/
inductive Quotes : List Char → List Char → Prop where
  | nil : Quotes [] []
  | pair {c : Char} {raw name : List Char} (hc : IsEscapable c)
      (hraw : Quotes raw name) : Quotes (backtick :: c :: raw) (c :: name)
  | lone {c : Char} {raw name : List Char} (hc : ¬ IsEscapable c)
      (hraw : Quotes (c :: raw) name) :
      Quotes (backtick :: c :: raw) (backtick :: name)
  | plain {c : Char} {raw name : List Char} (hc : ¬ IsEscapable c)
      (hraw : Quotes raw name) : Quotes (c :: raw) (c :: name)

/-- What stands between two brackets, and the step that it spells. An index
fits 64 signed bits by its type. -/
inductive Body : List Char → Step → Prop where
  | number {n : Numeral} {i : Index} (hne : n.digits ≠ [])
      (hdigits : ∀ c ∈ n.digits, IsDigit c) (hi : i.val = n.toInt) :
      Body n.toList (.index i)
  | here : Body ['s', 'e', 'l', 'f'] .here
  | quoted {raw name : List Char} (h : Quotes raw name) :
      Body (Text.singleQuote :: (raw ++ [Text.singleQuote]))
        (.key (String.ofList name))

/-- One step as it stands in front of `rest`. An identifier takes every
character that it can. -/
inductive Spells (rest : List Char) : List Char → Step → Prop where
  | identifier {c : Char} {cs : List Char} (hc : IsHead c)
      (hcs : ∀ d ∈ cs, IsBody d) (hrest : Clear IsBody rest) :
      Spells rest (c :: cs) (.key (String.ofList (c :: cs)))
  | subscript {body : List Char} {step : Step} (h : Body body step) :
      Spells rest ('[' :: (body ++ [']'])) step

def dots (k : Nat) : List Char :=
  List.replicate k '.'

/-- A path text and its steps, each with any number of dots behind it. -/
inductive Written : List Char → List Step → Prop where
  | nil : Written [] []
  | cons {text rest : List Char} {step : Step} {steps : List Step} (k : Nat)
      (hstep : Spells (dots k ++ rest) text step)
      (hrest : Written rest steps) :
      Written (text ++ (dots k ++ rest)) (step :: steps)

/-- No more than `k` digits stand together. -/
def DigitRunsWithin (k : Nat) (s : List Char) : Prop :=
  ∀ run, run <:+: s → (∀ c ∈ run, IsDigit c) → run.length ≤ k

theorem clear_nil (p : Char → Prop) : Clear p [] := by
  intro c hc
  cases hc

theorem clear_cons_iff {p : Char → Prop} {c : Char} {rest : List Char} :
    Clear p (c :: rest) ↔ ¬ p c := by
  simp only [Clear, List.head?_cons, Option.mem_def, Option.some.injEq, forall_eq']

instance (p : Char → Prop) [DecidablePred p] :
    (rest : List Char) → Decidable (Clear p rest)
  | [] => .isTrue (clear_nil p)
  | _ :: _ => decidable_of_iff _ clear_cons_iff.symm

theorem DigitRunsWithin.of_infix {k : Nat} {s t : List Char}
    (h : DigitRunsWithin k t) (hst : s <:+: t) : DigitRunsWithin k s := by
  intro run hrun hdigits
  exact h run (hrun.trans hst) hdigits

theorem DigitRunsWithin.of_length_le {k : Nat} {s : List Char}
    (h : s.length ≤ k) : DigitRunsWithin k s := by
  intro run hrun _
  exact Nat.le_trans hrun.length_le h

theorem isDigit_iff {c : Char} : c.isDigit = true ↔ IsDigit c := by
  simp only [Char.isDigit, Bool.and_eq_true, decide_eq_true_eq, IsDigit]
  exact Iff.rfl

theorem isIdentifierHead_iff {c : Char} :
    Reading.isIdentifierHead c = true ↔ IsHead c := by
  have hupper : c.isUpper = true ↔ 'A' ≤ c ∧ c ≤ 'Z' := decide_eq_true_iff
  have hlower : c.isLower = true ↔ 'a' ≤ c ∧ c ≤ 'z' := by
    show (decide ('a' ≤ c) && decide (c ≤ 'z')) = true ↔ _
    rw [Bool.and_eq_true, decide_eq_true_iff, decide_eq_true_iff]
  show ((c.isUpper || c.isLower) || c == '$' || c == '_') = true ↔ _
  simp only [Bool.or_eq_true, hupper, hlower, beq_iff_eq, IsHead, or_assoc]

theorem isIdentifierBody_iff {c : Char} :
    Reading.isIdentifierBody c = true ↔ IsBody c := by
  simp only [Reading.isIdentifierBody, Bool.or_eq_true, isIdentifierHead_iff,
    isDigit_iff, IsBody]

end TreePath.Grammar
