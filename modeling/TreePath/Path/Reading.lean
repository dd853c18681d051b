import TreePath.Numeral
import TreePath.Step.Basic

/-!
Path texts. A path text is a run of steps, each a bare identifier or a bracketed subscript, each
with any number of dots behind it. Reading goes from left to right, one step at a time, and
never looks past the step it reads.
-/

namespace TreePath

/-- What makes a path text unreadable. -/
inductive PathFlaw where
  | malformed
  | stepExpected
  | badSubscript
  | openSubscript
  | openText
deriving DecidableEq, Repr

/-- Why reading came to a halt: a flaw, with the text that remained there, or a number too long. -/
inductive Halt where
  | flawed (flaw : PathFlaw) (rest : List Char)
  | overlong (e : TooManyDigits)
deriving DecidableEq, Repr

namespace Reading

/-- Identifiers are ASCII; any other key takes the quoted form. -/
def isIdentifierHead (c : Char) : Bool := c.isAlpha || c == '$' || c == '_'

def isIdentifierBody (c : Char) : Bool := isIdentifierHead c || c.isDigit

/-- The text up to the closing quote, unescaped, and what follows that quote; none if it is never
closed. -/
def unquote? : List Char → Option (List Char × List Char)
  | [] => none
  | '\x60' :: '\x60' :: rest => (unquote? rest).map fun r => ('\x60' :: r.1, r.2)
  | '\x60' :: '\x27' :: rest => (unquote? rest).map fun r => ('\x27' :: r.1, r.2)
  | '\x27' :: rest => some ([], rest)
  | c :: rest => (unquote? rest).map fun r => (c :: r.1, r.2)

/-- A subscript's value must be followed by a closing bracket. -/
def close (step : Step) : List Char → Except Halt (Step × List Char)
  | ']' :: rest => .ok (step, rest)
  | rest => .error (.flawed .openSubscript rest)

/-- Reads a subscript from behind its opening bracket. -/
def readSubscript (body : List Char) : Except Halt (Step × List Char) :=
  match Numeral.split? body with
  | some (numeral, rest) =>
    match numeral.value with
    | .error e => .error (.overlong e)
    | .ok n =>
      match Index.ofInt? n with
      | some i => close (.index i) rest
      | none => .error (.flawed .badSubscript body)
  | none =>
    match body with
    | 's' :: 'e' :: 'l' :: 'f' :: rest => close .here rest
    | '\x27' :: quoted =>
      match unquote? quoted with
      | some (name, rest) => close (.key (String.ofList name)) rest
      | none => .error (.flawed .openText body)
    | _ =>
      if body.contains ']' then .error (.flawed .badSubscript body)
      else .error (.flawed .openSubscript ('[' :: body))

def readIdentifier (s : List Char) : Step × List Char :=
  (.key (String.ofList (s.takeWhile isIdentifierBody)), s.dropWhile isIdentifierBody)

/-- Reads a step without the dots behind it. -/
def readBareStep : List Char → Except Halt (Step × List Char)
  | [] => .error (.flawed .stepExpected [])
  | c :: rest =>
    if c = '[' then readSubscript rest
    else if isIdentifierHead c then .ok (readIdentifier (c :: rest))
    else .error (.flawed .stepExpected (c :: rest))

def dropDots (s : List Char) : List Char := s.dropWhile (· == '.')

/-- Reads one step and the dots behind it. -/
def readStep (s : List Char) : Except Halt (Step × List Char) :=
  (readBareStep s).map fun r => (r.1, dropDots r.2)

theorem length_dropWhile_le (p : Char → Bool) (s : List Char) : (s.dropWhile p).length ≤ s.length :=
  (List.dropWhile_suffix p).length_le

theorem length_le_of_unquote? {s name rest : List Char} (h : unquote? s = some (name, rest)) :
    rest.length ≤ s.length := by
  induction s using unquote?.induct generalizing name rest with
  | case1 => simp [unquote?] at h
  | case2 r ih =>
    simp only [unquote?, Option.map_eq_some_iff, Prod.mk.injEq] at h
    obtain ⟨q, hq, -, rfl⟩ := h
    have := ih hq
    simp only [List.length_cons]
    omega
  | case3 r ih =>
    simp only [unquote?, Option.map_eq_some_iff, Prod.mk.injEq] at h
    obtain ⟨q, hq, -, rfl⟩ := h
    have := ih hq
    simp only [List.length_cons]
    omega
  | case4 r =>
    simp only [unquote?, Option.some.injEq, Prod.mk.injEq] at h
    obtain ⟨-, rfl⟩ := h
    simp
  | case5 c r h1 h2 h3 ih =>
    rw [unquote?] at h
    · simp only [Option.map_eq_some_iff, Prod.mk.injEq] at h
      obtain ⟨q, hq, -, rfl⟩ := h
      have := ih hq
      simp only [List.length_cons]
      omega
    all_goals assumption

theorem length_lt_of_close {step found : Step} {s rest : List Char}
    (h : close step s = .ok (found, rest)) : rest.length < s.length := by
  unfold close at h
  split at h
  · cases h
    simp
  · cases h

theorem length_le_of_split? {s rest : List Char} {n : Numeral}
    (h : Numeral.split? s = some (n, rest)) : rest.length ≤ s.length := by
  have := congrArg List.length (Numeral.toList_append_of_split? h)
  simp only [List.length_append] at this
  omega

theorem length_lt_of_readSubscript {body rest : List Char} {step : Step}
    (h : readSubscript body = .ok (step, rest)) : rest.length < body.length := by
  unfold readSubscript at h
  split at h
  · next n r hr =>
    split at h
    · cases h
    · split at h
      · have := length_lt_of_close h
        have := length_le_of_split? hr
        omega
      · cases h
  · split at h
    · have := length_lt_of_close h
      simp only [List.length_cons]
      omega
    · split at h
      · next hq =>
        have := length_lt_of_close h
        have := length_le_of_unquote? hq
        simp only [List.length_cons]
        omega
      · cases h
    · split at h <;> cases h

theorem length_lt_of_readBareStep {s rest : List Char} {step : Step}
    (h : readBareStep s = .ok (step, rest)) : rest.length < s.length := by
  unfold readBareStep at h
  split at h
  · cases h
  · next c r =>
    split at h
    · have := length_lt_of_readSubscript h
      simp only [List.length_cons]
      omega
    · split at h
      · next hc =>
        cases h
        have hb : isIdentifierBody c = true := by simp [isIdentifierBody, hc]
        have := length_dropWhile_le isIdentifierBody r
        simp only [List.dropWhile_cons, hb, ↓reduceIte, List.length_cons]
        omega
      · cases h

theorem length_lt_of_readStep {s rest : List Char} {step : Step}
    (h : readStep s = .ok (step, rest)) : rest.length < s.length := by
  unfold readStep at h
  cases hb : readBareStep s with
  | error e => simp [hb, Except.map] at h
  | ok r =>
    simp only [hb, Except.map, Except.ok.injEq, Prod.mk.injEq] at h
    obtain ⟨-, rfl⟩ := h
    have := length_lt_of_readBareStep hb
    have := length_dropWhile_le (· == '.') r.2
    simp only [dropDots]
    omega

/-- How a run of reading ended. -/
inductive Ending where
  | taken
  | exhausted
  | halted (h : Halt)
deriving DecidableEq, Repr

/-- Reads steps until the limit is reached, the text ends or reading halts. The limit is looked at
before the text. -/
def pull (limit : Option Nat) (s : List Char) : List Step × Ending :=
  if limit = some 0 then ([], .taken)
  else if s.isEmpty then ([], .exhausted)
  else
    match _h : readStep s with
    | .error e => ([], .halted e)
    | .ok (step, rest) =>
      let more := pull (limit.map (· - 1)) rest
      (step :: more.1, more.2)
termination_by s.length
decreasing_by exact length_lt_of_readStep ‹_›

/-- Hands each step with its place to a visitor that keeps a state and may ask to stop. The halt is
reported only if the visitor did not stop before. -/
def visit {σ : Type} (visitor : σ → Step → Nat → σ × Bool) (state : σ) (place : Nat)
    (s : List Char) : σ × Option Halt :=
  if s.isEmpty then (state, none)
  else
    match _h : readStep s with
    | .error e => (state, some e)
    | .ok (step, rest) =>
      let (next, stop) := visitor state step place
      if stop then (next, none) else visit visitor next (place + 1) rest
termination_by s.length
decreasing_by exact length_lt_of_readStep ‹_›

/-- All steps of a text. -/
def readAll (s : List Char) : Except Halt (List Step) :=
  if s.isEmpty then .ok []
  else
    match _h : readStep s with
    | .error e => .error e
    | .ok (step, rest) => (readAll rest).map (step :: ·)
termination_by s.length
decreasing_by exact length_lt_of_readStep ‹_›

end Reading

end TreePath
