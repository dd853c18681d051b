import TreePath.Step.Basic
import TreePath.Value.Display
import TreePath.Value.Equality

namespace TreePath

/-- What is wrong with a record, or with one of its fields. -/
inductive RecordProblem where
  | notText
  | notInteger
  | tooSmall
  | tooLarge
  | absent
  | unknownField
  | noForm
  | unknownForm (shown : String)
  | notRecord
deriving DecidableEq, Repr

/-- A problem and its place: the record's form and the field, or nothing for the record as a whole. -/
structure RecordFault where
  place : List String
  problem : RecordProblem
deriving DecidableEq, Repr

namespace RecordProblem

def name : RecordProblem → String
  | notText => "string_type"
  | notInteger => "int_type"
  | tooSmall => "greater_than_equal"
  | tooLarge => "less_than_equal"
  | absent => "missing"
  | unknownField => "extra_forbidden"
  | noForm => "union_tag_not_found"
  | unknownForm _ => "union_tag_invalid"
  | notRecord => "model_attributes_type"

def message : RecordProblem → String
  | notText => "Input should be a valid string"
  | notInteger => "Input should be a valid integer"
  | tooSmall => "Input should be greater than or equal to " ++ String.ofList (Decimal.intDigits leastWord)
  | tooLarge => "Input should be less than or equal to " ++ String.ofList (Decimal.intDigits greatestWord)
  | absent => "Field required"
  | unknownField => "Extra inputs are not permitted"
  | noForm => "Unable to extract tag using discriminator 'kind'"
  | unknownForm shown =>
    "Input tag '" ++ shown
      ++ "' found using 'kind' does not match any of the expected tags: 'text', 'numeric', 'self'"
  | notRecord => "Input should be a valid dictionary or object to extract fields from"

end RecordProblem

namespace Step

def record : Step → List (String × Value)
  | key name => [("kind", .str "text"), ("name", .str name)]
  | index i => [("kind", .str "numeric"), ("index", .int i.val)]
  | here => [("kind", .str "self")]

/-- A key is a text and nothing that could be turned into one. -/
def keyOfValue : Value → Except RecordProblem Step
  | .str name => .ok (key name)
  | _ => .error .notText

/-- A position is a whole number within bounds; a truth value is none. -/
def indexOfValue : Value → Except RecordProblem Step
  | .int n =>
    match Index.ofInt? n with
    | some i => .ok (index i)
    | none => .error (if n < leastWord then .tooSmall else .tooLarge)
  | _ => .error .notInteger

/-- The faults of the fields that a record of some form does not have, in the record's order. -/
def strayFields (form : String) (own : List String) (fields : List (String × Value)) :
    List RecordFault :=
  (fields.filter fun e => !own.contains e.1).map fun e => ⟨[form, e.1], .unknownField⟩

/-- Reads a record with one field of its own beside `kind`. The field's fault comes before those of
stray fields. -/
def ofField (form field : String) (read : Value → Except RecordProblem Step)
    (fields : List (String × Value)) : Except (List RecordFault) Step :=
  let strays := strayFields form ["kind", field] fields
  let found :=
    match Value.lookup? field fields with
    | some v => read v
    | none => .error .absent
  match found, strays with
  | .ok s, [] => .ok s
  | .ok _, faults => .error faults
  | .error problem, faults => .error (⟨[form, field], problem⟩ :: faults)

def ofFields (fields : List (String × Value)) : Except (List RecordFault) Step :=
  match Value.lookup? "kind" fields with
  | none => .error [⟨[], .noForm⟩]
  | some (.str "text") => ofField "text" "name" keyOfValue fields
  | some (.str "numeric") => ofField "numeric" "index" indexOfValue fields
  | some (.str "self") =>
    match strayFields "self" ["kind"] fields with
    | [] => .ok here
    | faults => .error faults
  | some tag => .error [⟨[], .unknownForm tag.plainText⟩]

/-- Reads a step back from its record. Of the values that are no maps only the absent value is looked
into for a form, in vain. -/
def ofValue : Value → Except (List RecordFault) Step
  | .map fields => ofFields fields
  | .view fields => ofFields fields
  | .missing => .error [⟨[], .noForm⟩]
  | _ => .error [⟨[], .notRecord⟩]

end Step

end TreePath
