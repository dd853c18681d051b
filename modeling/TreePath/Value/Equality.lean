import TreePath.Value.Number

/-!
Equality of values: numbers by their exact values, maps without regard to order or holder, bytes
without regard to holder. Fixed sequences never equal lists, and the absent value equals only itself.
-/

namespace TreePath.Value

/-- The value under a key. -/
def lookup? (key : String) : List (String × Value) → Option Value
  | [] => none
  | (k, v) :: rest => if k = key then some v else lookup? key rest

/-- Whether every key of the one map is a key of the other. -/
def keysWithin (xs ys : List (String × Value)) : Bool :=
  xs.all fun e => (lookup? e.1 ys).isSome

/-- The bytes of a value that holds bytes. -/
def octets? : Value → Option (List UInt8)
  | bytes octets => some octets
  | buffer octets => some octets
  | _ => none

mutual

def same : Value → Value → Bool
  | null, w => w.isNull
  | missing, w => w.isMissing
  | bool b, w =>
    match w.number? with
    | some n => (Number.int (if b then 1 else 0)).beq n
    | none => false
  | int m, w =>
    match w.number? with
    | some n => (Number.int m).beq n
    | none => false
  | float x, w =>
    match w.number? with
    | some n => (Number.float x).beq n
    | none => false
  | str s, w =>
    match w with
    | str t => s == t
    | _ => false
  | list xs, w =>
    match w with
    | list ys => sameAll xs ys
    | _ => false
  | tuple xs, w =>
    match w with
    | tuple ys => sameAll xs ys
    | _ => false
  | map xs, w =>
    match w.entries? with
    | some ys => sameEntries xs ys && keysWithin ys xs
    | none => false
  | view xs, w =>
    match w.entries? with
    | some ys => sameEntries xs ys && keysWithin ys xs
    | none => false
  | bytes a, w => w.octets? == some a
  | buffer a, w => w.octets? == some a

def sameAll : List Value → List Value → Bool
  | [], ys => ys.isEmpty
  | x :: xs, ys =>
    match ys with
    | y :: ys => same x y && sameAll xs ys
    | [] => false

/-- Each entry on the left has its equal under the same key on the right. -/
def sameEntries : List (String × Value) → List (String × Value) → Bool
  | [], _ => true
  | (k, v) :: rest, ys =>
    (match lookup? k ys with
     | some w => same v w
     | none => false) && sameEntries rest ys

end

end TreePath.Value
