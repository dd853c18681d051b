import TreePath.Decimal.Places
import TreePath.Value.Display

/-!
Message templates. A percent sign opens a place for a value: the key of a table entry in round
brackets, flags, a least width, a precision and the letter of a conversion, all but the letter
optional.
-/

namespace TreePath.Template

/-- Why a template cannot be filled. -/
inductive Fault where
  | tooFewValues
  | valuesLeftOver
  | tableNeeded
  | openKey
  | unknownKey (key : String)
  | incomplete
  | starNotWhole
  | starTooLarge (target : String)
  | widthTooLarge
  | precisionTooLarge
  | unknownConversion (conversion : Char) (place : Nat)
  | notReal (conversion : Char) (found : String)
  | notWhole (conversion : Char) (found : String)
  | notFloat (found : String)
  | notCharacter
  | characterOutOfRange
  | nanToWhole
  | infinityToWhole
  | tooLargeForFloat
deriving DecidableEq, Repr

/-- The conversion letter as a message shows it. -/
def showConversion (c : Char) : String :=
  String.singleton (if 31 ≤ c.toNat ∧ c.toNat ≤ 126 then c else '?')

def Fault.message : Fault → String
  | tooFewValues => "not enough arguments for format string"
  | valuesLeftOver => "not all arguments converted during string formatting"
  | tableNeeded => "format requires a mapping"
  | openKey => "incomplete format key"
  | unknownKey key => Text.quote key
  | incomplete => "incomplete format"
  | starNotWhole => "* wants int"
  | starTooLarge target => "Python int too large to convert to C " ++ target
  | widthTooLarge => "width too big"
  | precisionTooLarge => "precision too big"
  | unknownConversion c place =>
    "unsupported format character '" ++ showConversion c ++ "' (0x"
      ++ String.ofList (Text.hexDigits 1 c.toNat) ++ ") at index " ++ toString place
  | notReal c found =>
    "%" ++ String.singleton c ++ " format: a real number is required, not " ++ found
  | notWhole c found =>
    "%" ++ String.singleton c ++ " format: an integer is required, not " ++ found
  | notFloat found => "must be real number, not " ++ found
  | notCharacter => "%c requires int or char"
  | characterOutOfRange => "%c arg not in range(0x110000)"
  | nanToWhole => "cannot convert float NaN to integer"
  | infinityToWhole => "cannot convert float infinity to integer"
  | tooLargeForFloat => "int too large to convert to float"

/-- What a template is filled from: the values of a row still to be taken, or a table with the value
that waits to be taken. -/
inductive Supply where
  | row (rest : List Value)
  | table (entries : List (String × Value)) (waiting : Option Value)

/-- A single map that is not empty is a table, and so is itself the first value. -/
def Supply.of : List Value → Supply
  | [v] =>
    match v.entries? with
    | some (e :: rest) => table (e :: rest) (some v)
    | _ => row [v]
  | values => row values

def Supply.take : Supply → Except Fault (Value × Supply)
  | row (v :: rest) => .ok (v, row rest)
  | row [] => .error .tooFewValues
  | table entries (some v) => .ok (v, table entries none)
  | table _ none => .error .tooFewValues

structure Flags where
  leftAligned : Bool := false
  signed : Bool := false
  spaced : Bool := false
  alternate : Bool := false
  zeroFilled : Bool := false
deriving DecidableEq, Repr

def readFlags (flags : Flags) : List Char → Flags × List Char
  | '-' :: rest => readFlags { flags with leftAligned := true } rest
  | '+' :: rest => readFlags { flags with signed := true } rest
  | ' ' :: rest => readFlags { flags with spaced := true } rest
  | '#' :: rest => readFlags { flags with alternate := true } rest
  | '0' :: rest => readFlags { flags with zeroFilled := true } rest
  | s => (flags, s)

/-- The longest width and precision. -/
def greatestWidth : Nat := 9223372036854775807

def greatestPrecision : Nat := 2147483647

/-- A width or precision: left out, in digits, or by a star taken from the supply. -/
inductive Amount where
  | absent
  | count (n : Nat)
  | star
deriving DecidableEq, Repr

def readAmount : List Char → Amount × List Char
  | '*' :: rest => (.star, rest)
  | s =>
    match s.takeWhile Char.isDigit with
    | [] => (.absent, s)
    | digits => (.count (Nat.ofDigitChars 10 digits 0), s.dropWhile Char.isDigit)

/-- The key up to the bracket that closes it; brackets inside it come in pairs. -/
def readKey (depth : Nat) (key : List Char) : List Char → Option (List Char × List Char)
  | [] => none
  | c :: rest =>
    if c = ')' then
      match depth with
      | 0 => some (key.reverse, rest)
      | depth + 1 => readKey depth (c :: key) rest
    else readKey (if c = '(' then depth + 1 else depth) (c :: key) rest

/-- The key of a place: there may be none, and it may lack its closing bracket. -/
inductive Key where
  | none
  | unclosed
  | named (name : String)
deriving DecidableEq, Repr

/-- A place for a value. A precision stands behind a point; the conversion is missing where the
template ends too early. -/
structure Place where
  key : Key
  flags : Flags
  width : Amount
  precision : Option Amount
  conversion : Option Char
  /-- Where in the template the conversion stands. -/
  index : Nat
deriving DecidableEq, Repr

inductive Item where
  | literal (c : Char)
  | place (p : Place)
deriving DecidableEq, Repr

/-- A size letter before the conversion means nothing. -/
def dropSizeLetter : List Char → List Char
  | 'h' :: rest => rest
  | 'l' :: rest => rest
  | 'L' :: rest => rest
  | s => s

def readPrecision : List Char → Option Amount × List Char
  | '.' :: rest => (some (readAmount rest).1, (readAmount rest).2)
  | s => (none, s)

/-- Reads a place from behind its key; `total` is the length of the template. -/
def readKeyedPlace (total : Nat) (key : Key) (s : List Char) : Place × List Char :=
  let flags := readFlags {} s
  let width := readAmount flags.2
  let precision := readPrecision width.2
  let conversion := dropSizeLetter precision.2
  (⟨key, flags.1, width.1, precision.1, conversion.head?, total - conversion.length⟩, conversion.tail)

/-- Reads a place from behind its percent sign. -/
def readPlace (total : Nat) : List Char → Place × List Char
  | '(' :: rest =>
    match readKey 0 [] rest with
    | none => readKeyedPlace total .unclosed []
    | some (name, after) => readKeyedPlace total (.named (String.ofList name)) after
  | s => readKeyedPlace total .none s

theorem length_readFlags_le (flags : Flags) (s : List Char) :
    (readFlags flags s).2.length ≤ s.length := by
  fun_induction readFlags flags s <;> simp only [List.length_cons] <;> omega

theorem length_readAmount_le (s : List Char) : (readAmount s).2.length ≤ s.length := by
  unfold readAmount
  split
  · simp
  · split
    · simp
    · exact (List.dropWhile_suffix Char.isDigit).length_le

theorem length_readPrecision_le (s : List Char) : (readPrecision s).2.length ≤ s.length := by
  unfold readPrecision
  split
  · next rest =>
    have := length_readAmount_le rest
    simp only [List.length_cons]
    omega
  · simp

theorem length_dropSizeLetter_le (s : List Char) : (dropSizeLetter s).length ≤ s.length := by
  unfold dropSizeLetter
  split <;> simp

theorem length_le_of_readKey {depth : Nat} {key s name rest : List Char}
    (h : readKey depth key s = some (name, rest)) : rest.length ≤ s.length := by
  fun_induction readKey depth key s with
  | case1 => cases h
  | case2 =>
    cases h
    simp
  | case3 key rest' depth ih =>
    have := ih h
    simp only [List.length_cons]
    omega
  | case4 depth key c rest' hc ih =>
    have := ih h
    simp only [List.length_cons]
    omega

theorem length_readKeyedPlace_le (total : Nat) (key : Key) (s : List Char) :
    (readKeyedPlace total key s).2.length ≤ s.length := by
  have h1 := length_readFlags_le {} s
  have h2 := length_readAmount_le (readFlags {} s).2
  have h3 := length_readPrecision_le (readAmount (readFlags {} s).2).2
  have h4 := length_dropSizeLetter_le (readPrecision (readAmount (readFlags {} s).2).2).2
  simp only [readKeyedPlace, List.length_tail]
  omega

theorem length_readPlace_le (total : Nat) (s : List Char) :
    (readPlace total s).2.length ≤ s.length := by
  unfold readPlace
  split
  · next rest =>
    split
    · have := length_readKeyedPlace_le total .unclosed []
      simp only [List.length_nil] at this
      omega
    · next name after h =>
      have := length_le_of_readKey h
      have := length_readKeyedPlace_le total (.named (String.ofList name)) after
      simp only [List.length_cons]
      omega
  · exact length_readKeyedPlace_le total .none s

/-- The items of a template that is `total` characters long, from some rest of it on. Two percent
signs stand for one. -/
def readItems (total : Nat) : List Char → List Item
  | [] => []
  | '%' :: '%' :: rest => .literal '%' :: readItems total rest
  | '%' :: rest =>
    let place := readPlace total rest
    .place place.1 :: readItems total place.2
  | c :: rest => .literal c :: readItems total rest
termination_by s => s.length
decreasing_by
  · simp only [List.length_cons]
    omega
  · have := length_readPlace_le total rest
    simp only [List.length_cons]
    omega
  · simp

/-- A value in writing: a sign, a marker of the base, and the rest, which zeros may be put before if
the value is a number. -/
structure Piece where
  sign : List Char := []
  marker : List Char := []
  body : List Char
  numeric : Bool := false
deriving DecidableEq, Repr

/-- Fills a piece up to a width: behind it if it is aligned to the left, with zeros between its marker
and its body if it is a number to be filled so, else before it. -/
def Piece.layout (flags : Flags) (width : Nat) (p : Piece) : List Char :=
  let size := p.sign.length + p.marker.length + p.body.length
  let gap := width - size
  if flags.leftAligned then p.sign ++ p.marker ++ p.body ++ List.replicate gap ' '
  else if flags.zeroFilled && p.numeric then
    p.sign ++ p.marker ++ List.replicate gap '0' ++ p.body
  else List.replicate gap ' ' ++ p.sign ++ p.marker ++ p.body

/-- A minus sign where there is one, else what the flags ask for. -/
def signFor (flags : Flags) (negative : Bool) : List Char :=
  if negative then ['-'] else if flags.signed then ['+'] else if flags.spaced then [' '] else []

/-- A text cut to the precision. -/
def textPiece (precision : Option Nat) (s : List Char) : Piece :=
  { body := match precision with
      | some n => s.take n
      | none => s }

/-- Every character beyond ASCII as an escape. -/
def asciiOnly (s : List Char) : List Char :=
  s.flatMap fun c => if c.toNat < 0x80 then [c] else Text.hexEscape c.toNat

/-- The whole number that a value is cut to. -/
def wholeOf (conversion : Char) : Value → Except Fault Int
  | .int n => .ok n
  | .bool b => .ok (if b then 1 else 0)
  | .float x =>
    match Decimal.Form.ofFloat x with
    | .nan => .error .nanToWhole
    | .infinite _ => .error .infinityToWhole
    | form => .ok (form.truncate?.getD 0)
  | v => .error (.notReal conversion v.typeName)

/-- The value as a whole number if it is one. -/
def exactWholeOf (conversion : Char) : Value → Except Fault Int
  | .int n => .ok n
  | .bool b => .ok (if b then 1 else 0)
  | v => .error (.notWhole conversion v.typeName)

/-- A whole number in some base, with at least as many digits as the precision says. -/
def wholePiece (flags : Flags) (precision : Option Nat) (base : Nat) (marker : List Char) (n : Int) :
    Piece :=
  let digits := Nat.toDigits base n.natAbs
  { sign := signFor flags (n < 0)
    marker := if flags.alternate then marker else []
    body := List.replicate (precision.getD 0 - digits.length) '0' ++ digits
    numeric := true }

def upperPiece (p : Piece) : Piece :=
  { p with marker := p.marker.map Char.toUpper, body := p.body.map Char.toUpper }

/-- The float that a value stands for. -/
def floatOf : Value → Except Fault Float
  | .float x => .ok x
  | .int n =>
    match Decimal.floatOfInt? n with
    | some x => .ok x
    | none => .error .tooLargeForFloat
  | .bool b => .ok (if b then 1.0 else 0.0)
  | v => .error (.notFloat v.typeName)

/-- A float in one of the three notations, named by the small letter of its conversion. Six places or
digits are shown unless the precision says otherwise. -/
def floatPiece (flags : Flags) (precision : Option Nat) (style : Char) (x : Float) : Piece :=
  let places := precision.getD 6
  match Decimal.Form.ofFloat x with
  | .nan => { sign := signFor flags false, body := "nan".toList, numeric := true }
  | .infinite negative => { sign := signFor flags negative, body := "inf".toList, numeric := true }
  | .finite negative mantissa exponent =>
    let d := Decimal.exactDecimal mantissa exponent
    { sign := signFor flags negative
      body :=
        if style = 'f' then d.fixedNotation places flags.alternate
        else if style = 'e' then d.exponentNotation places flags.alternate
        else d.generalNotation (max places 1) flags.alternate
      numeric := true }

/-- The single character that a value stands for. -/
def characterOf : Value → Except Fault Char
  | .str s =>
    match s.toList with
    | [c] => .ok c
    | _ => .error .notCharacter
  | .int n => if 0 ≤ n ∧ n < 0x110000 then .ok (Char.ofNat n.toNat) else .error .characterOutOfRange
  | .bool b => .ok (Char.ofNat (if b then 1 else 0))
  | _ => .error .notCharacter

/-- Converts a value by a conversion letter, none if there is no such letter. -/
def convert? (flags : Flags) (precision : Option Nat) (conversion : Char) (v : Value) :
    Option (Except Fault Piece) :=
  match conversion with
  | 's' => some (.ok (textPiece precision v.plainText.toList))
  | 'r' => some (.ok (textPiece precision v.display.toList))
  | 'a' => some (.ok (textPiece precision (asciiOnly v.display.toList)))
  | 'd' | 'i' | 'u' => some ((wholeOf conversion v).map (wholePiece flags precision 10 []))
  | 'o' => some ((exactWholeOf conversion v).map (wholePiece flags precision 8 ['0', 'o']))
  | 'x' => some ((exactWholeOf conversion v).map (wholePiece flags precision 16 ['0', 'x']))
  | 'X' =>
    some ((exactWholeOf conversion v).map fun n => upperPiece (wholePiece flags precision 16 ['0', 'x'] n))
  | 'f' | 'e' | 'g' => some ((floatOf v).map (floatPiece flags precision conversion))
  | 'F' | 'E' | 'G' =>
    some ((floatOf v).map fun x => upperPiece (floatPiece flags precision conversion.toLower x))
  | 'c' => some ((characterOf v).map fun c => { body := [c] })
  | _ => none

/-- The value of a width or precision, if there is one. -/
def Amount.resolve (greatest : Nat) (tooLarge : Fault) (target : String) (supply : Supply) :
    Amount → Except Fault (Option Int × Supply)
  | absent => .ok (none, supply)
  | count n => if greatest < n then .error tooLarge else .ok (some n, supply)
  | star => do
    let (v, supply) ← supply.take
    match v with
    | .int n =>
      if n < -greatest - 1 ∨ greatest < n then .error (.starTooLarge target)
      else .ok (some n, supply)
    | .bool b => .ok (some (if b then 1 else 0), supply)
    | _ => .error .starNotWhole

/-- Makes the value under a key the next one to be taken. -/
def Supply.choose (supply : Supply) : Key → Except Fault Supply
  | .none => .ok supply
  | .unclosed =>
    match supply with
    | row _ => .error .tableNeeded
    | table _ _ => .error .openKey
  | .named name =>
    match supply with
    | row _ => .error .tableNeeded
    | table entries _ =>
      match entries.lookup name with
      | some v => .ok (table entries (some v))
      | none => .error (.unknownKey name)

def Place.precisionIn (p : Place) (supply : Supply) : Except Fault (Option Nat × Supply) :=
  match p.precision with
  | none => .ok (none, supply)
  | some amount => do
    let (n, supply) ← amount.resolve greatestPrecision .precisionTooLarge "int" supply
    .ok (some (n.getD 0).toNat, supply)

/-- What a place becomes, and the supply behind it. A width below zero aligns to the left. -/
def Place.fill (p : Place) (supply : Supply) : Except Fault (List Char × Supply) := do
  let supply ← supply.choose p.key
  let (width, supply) ← p.width.resolve greatestWidth .widthTooLarge "ssize_t" supply
  let (precision, supply) ← p.precisionIn supply
  let width := width.getD 0
  let flags := if width < 0 then { p.flags with leftAligned := true } else p.flags
  match p.conversion with
  | none => .error .incomplete
  | some c => do
    let (v, supply) ← supply.take
    match convert? flags precision c v with
    | none => .error (.unknownConversion c p.index)
    | some piece => do
      let piece ← piece
      .ok (piece.layout flags width.natAbs, supply)

/-- Fills the items one after the other; every value of a row has to be taken. -/
def fillItems (supply : Supply) : List Item → Except Fault (List Char)
  | [] =>
    match supply with
    | .row (_ :: _) => .error .valuesLeftOver
    | _ => .ok []
  | .literal c :: rest => (fillItems supply rest).map (c :: ·)
  | .place p :: rest => do
    let (text, supply) ← p.fill supply
    let more ← fillItems supply rest
    .ok (text ++ more)

/-- Fills a template. Without values it stands for itself, percent signs and all. -/
def fill (template : String) (values : List Value) : Except Fault (List Char) :=
  if values.isEmpty then .ok template.toList
  else fillItems (.of values) (readItems template.toList.length template.toList)

end TreePath.Template
