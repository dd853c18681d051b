/-!
Bytes as text: the transformation formats of Unicode in 8, 16 and 32 bits, told apart by a byte order
mark or by where the zeros lie in the first bytes. Surrogates that stand alone are no characters;
they are read as U+FFFD.
-/

namespace TreePath.Text

inductive Encoding where
  | utf8
  | utf16 (bigEndian : Bool)
  | utf32 (bigEndian : Bool)
deriving DecidableEq, Repr

def Encoding.name : Encoding → String
  | utf8 => "utf-8"
  | utf16 bigEndian => if bigEndian then "utf-16-be" else "utf-16-le"
  | utf32 bigEndian => if bigEndian then "utf-32-be" else "utf-32-le"

/-- Why bytes are no text. -/
inductive DecodingFlaw where
  | invalidStart
  | invalidContinuation
  | unexpectedEnd
  | truncated
  | outOfRange
deriving DecidableEq, Repr

def DecodingFlaw.message : DecodingFlaw → String
  | invalidStart => "invalid start byte"
  | invalidContinuation => "invalid continuation byte"
  | unexpectedEnd => "unexpected end of data"
  | truncated => "truncated data"
  | outOfRange => "code point not in range(0x110000)"

/-- The bytes at fault and the place of the first of them. -/
structure DecodingFault where
  encoding : Encoding
  flaw : DecodingFlaw
  start : Nat
  octets : List UInt8
deriving DecidableEq, Repr

def octetDigits (b : UInt8) : String :=
  let digits := Nat.toDigits 16 b.toNat
  String.ofList ('0' :: 'x' :: (List.replicate (2 - digits.length) '0' ++ digits))

def DecodingFault.message (f : DecodingFault) : String :=
  let place :=
    match f.octets with
    | [b] => "byte " ++ octetDigits b ++ " in position " ++ toString f.start
    | octets =>
      "bytes in position " ++ toString f.start ++ "-" ++ toString (f.start + octets.length - 1)
  "'" ++ f.encoding.name ++ "' codec can't decode " ++ place ++ ": " ++ f.flaw.message

/-- The character of a code point; a surrogate has none. -/
def charOfCode (code : Nat) : Char :=
  if 0xD800 ≤ code ∧ code ≤ 0xDFFF then '\uFFFD' else Char.ofNat code

/-- A character of several bytes, begun at `start`: the bytes so far, last first, how many are still
owed, the range of the next one, and the bits so far. -/
structure OpenCharacter where
  start : Nat
  taken : List UInt8
  owed : Nat
  low : UInt8
  high : UInt8
  code : Nat

/-- What the first byte of several says. Overlong forms and code points beyond the last are kept out
by the range of the second byte. -/
def openCharacter? (start : Nat) (b : UInt8) : Option OpenCharacter :=
  if 0xC2 ≤ b ∧ b ≤ 0xDF then some ⟨start, [b], 1, 0x80, 0xBF, b.toNat - 0xC0⟩
  else if b = 0xE0 then some ⟨start, [b], 2, 0xA0, 0xBF, 0⟩
  else if 0xE1 ≤ b ∧ b ≤ 0xEF then some ⟨start, [b], 2, 0x80, 0xBF, b.toNat - 0xE0⟩
  else if b = 0xF0 then some ⟨start, [b], 3, 0x90, 0xBF, 0⟩
  else if 0xF1 ≤ b ∧ b ≤ 0xF3 then some ⟨start, [b], 3, 0x80, 0xBF, b.toNat - 0xF0⟩
  else if b = 0xF4 then some ⟨start, [b], 3, 0x80, 0x8F, 4⟩
  else none

/-- A broken character. One that began as a surrogate is at fault from its second byte on. -/
def OpenCharacter.fault (c : OpenCharacter) (flaw : DecodingFlaw) : DecodingFault :=
  if c.owed = 1 ∧ 0x360 ≤ c.code ∧ c.code ≤ 0x37F ∧ c.taken.length = 2 then
    ⟨.utf8, .invalidContinuation, c.start, c.taken.reverse.take 1⟩
  else ⟨.utf8, flaw, c.start, c.taken.reverse⟩

def decodeUtf8 (place : Nat) (pending : Option OpenCharacter) (done : List Char) :
    List UInt8 → Except DecodingFault (List Char)
  | [] =>
    match pending with
    | none => .ok done.reverse
    | some c => .error (c.fault .unexpectedEnd)
  | b :: rest =>
    match pending with
    | none =>
      if b < 0x80 then decodeUtf8 (place + 1) none (Char.ofNat b.toNat :: done) rest
      else
        match openCharacter? place b with
        | none => .error ⟨.utf8, .invalidStart, place, [b]⟩
        | some c => decodeUtf8 (place + 1) (some c) done rest
    | some c =>
      if c.low ≤ b ∧ b ≤ c.high then
        let code := 64 * c.code + (b.toNat - 0x80)
        if c.owed = 1 then decodeUtf8 (place + 1) none (charOfCode code :: done) rest
        else
          decodeUtf8 (place + 1) (some ⟨c.start, b :: c.taken, c.owed - 1, 0x80, 0xBF, code⟩) done rest
      else .error (c.fault .invalidContinuation)

def unit16 (bigEndian : Bool) (a b : UInt8) : Nat :=
  if bigEndian then 256 * a.toNat + b.toNat else 256 * b.toNat + a.toNat

def isHighSurrogate (unit : Nat) : Bool := 0xD800 ≤ unit && unit ≤ 0xDBFF

def isLowSurrogate (unit : Nat) : Bool := 0xDC00 ≤ unit && unit ≤ 0xDFFF

/-- The code point that a pair of surrogates stands for. -/
def joinSurrogates (high low : Nat) : Nat := 0x10000 + 0x400 * (high - 0xD800) + (low - 0xDC00)

/-- Reads units of 16 bits; `high` is the surrogate before, if one waits for its partner. -/
def decodeUtf16 (bigEndian : Bool) (place : Nat) (high : Option Nat) (done : List Char) :
    List UInt8 → Except DecodingFault (List Char)
  | [] => .ok ((alone high ++ done).reverse)
  | [b] => .error ⟨.utf16 bigEndian, .truncated, place, [b]⟩
  | a :: b :: rest =>
    let unit := unit16 bigEndian a b
    match high with
    | some h =>
      if isLowSurrogate unit then
        decodeUtf16 bigEndian (place + 2) none (Char.ofNat (joinSurrogates h unit) :: done) rest
      else if isHighSurrogate unit then
        decodeUtf16 bigEndian (place + 2) (some unit) (charOfCode h :: done) rest
      else decodeUtf16 bigEndian (place + 2) none (charOfCode unit :: charOfCode h :: done) rest
    | none =>
      if isHighSurrogate unit then decodeUtf16 bigEndian (place + 2) (some unit) done rest
      else decodeUtf16 bigEndian (place + 2) none (charOfCode unit :: done) rest
where
  alone (high : Option Nat) : List Char := (high.map charOfCode).toList

def unit32 (bigEndian : Bool) (a b c d : UInt8) : Nat :=
  if bigEndian then 65536 * unit16 true a b + unit16 true c d
  else 65536 * unit16 false c d + unit16 false a b

def decodeUtf32 (bigEndian : Bool) (place : Nat) (done : List Char) :
    List UInt8 → Except DecodingFault (List Char)
  | [] => .ok done.reverse
  | a :: b :: c :: d :: rest =>
    let code := unit32 bigEndian a b c d
    if code < 0x110000 then decodeUtf32 bigEndian (place + 4) (charOfCode code :: done) rest
    else .error ⟨.utf32 bigEndian, .outOfRange, place, [a, b, c, d]⟩
  | octets => .error ⟨.utf32 bigEndian, .truncated, place, octets⟩

def Encoding.decode (e : Encoding) (place : Nat) (octets : List UInt8) :
    Except DecodingFault (List Char) :=
  match e with
  | utf8 => decodeUtf8 place none [] octets
  | utf16 bigEndian => decodeUtf16 bigEndian place none [] octets
  | utf32 bigEndian => decodeUtf32 bigEndian place [] octets

/-- The encoding without a byte order mark: ASCII characters at the start leave zeros where a wider
unit has its upper bytes. -/
def encodingByZeros : List UInt8 → Encoding
  | [a, b] => if a = 0 then .utf16 true else if b = 0 then .utf16 false else .utf8
  | a :: b :: c :: d :: _ =>
    if a = 0 then if b = 0 then .utf32 true else .utf16 true
    else if b = 0 then if c = 0 ∧ d = 0 then .utf32 false else .utf16 false
    else .utf8
  | _ => .utf8

/-- Decodes bytes in the encoding that they show. Places count from the first byte; the mark of the
8-bit form is no part of the text, and places count from behind it. -/
def decodeDetected : List UInt8 → Except DecodingFault (List Char)
  | 0x00 :: 0x00 :: 0xFE :: 0xFF :: rest => (Encoding.utf32 true).decode 4 rest
  | 0xFF :: 0xFE :: 0x00 :: 0x00 :: rest => (Encoding.utf32 false).decode 4 rest
  | 0xFE :: 0xFF :: rest => (Encoding.utf16 true).decode 2 rest
  | 0xFF :: 0xFE :: rest => (Encoding.utf16 false).decode 2 rest
  | 0xEF :: 0xBB :: 0xBF :: rest => Encoding.utf8.decode 0 rest
  | octets => (encodingByZeros octets).decode 0 octets

end TreePath.Text
