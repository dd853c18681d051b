import TreePath.Text.Printable

namespace TreePath.Text

def singleQuote : Char := '\x27'

def doubleQuote : Char := '\x22'

/-- The quote that saves escapes, single where it makes no difference. -/
def quoteFor (s : List Char) : Char :=
  if s.contains singleQuote && !s.contains doubleQuote then doubleQuote else singleQuote

/-- At least `width` hexadecimal digits, in lower case. -/
def hexDigits (width n : Nat) : List Char :=
  let digits := Nat.toDigits 16 n
  List.replicate (width - digits.length) '0' ++ digits

/-- The shortest hexadecimal escape that fits the code point. -/
def hexEscape (n : Nat) : List Char :=
  if n < 0x100 then '\\' :: 'x' :: hexDigits 2 n
  else if n < 0x10000 then '\\' :: 'u' :: hexDigits 4 n
  else '\\' :: 'U' :: hexDigits 8 n

/-- The characters that have an escape of one letter. -/
def escapeLetter? : Char → Option Char
  | '\n' => some 'n'
  | '\r' => some 'r'
  | '\t' => some 't'
  | _ => none

/-- One character inside a literal, where `plain` characters stand for themselves. -/
def escapeChar (plain : Char → Bool) (quote c : Char) : List Char :=
  if c = quote ∨ c = '\\' then ['\\', c]
  else
    match escapeLetter? c with
    | some letter => ['\\', letter]
    | none => if plain c then [c] else hexEscape c.toNat

def quotedWith (plain : Char → Bool) (s : List Char) : List Char :=
  let quote := quoteFor s
  quote :: (s.flatMap (escapeChar plain quote) ++ [quote])

/-- The literal of a text. -/
def quoted (s : List Char) : List Char := quotedWith isPrintable s

/-- Among bytes only the printable ASCII characters stand for themselves. -/
def isPlainByte (c : Char) : Bool := 0x20 ≤ c.toNat && c.toNat < 0x7F

/-- The characters that bytes stand for in a literal. -/
def octetChars (octets : List UInt8) : List Char := octets.map fun b => Char.ofNat b.toNat

/-- The literal of a sequence of bytes, behind a `b`. -/
def quotedBytes (octets : List UInt8) : List Char := 'b' :: quotedWith isPlainByte (octetChars octets)

/-- One character inside the literal of bytes that can be changed, where a single quote is always
escaped and a double one never. -/
def escapeBufferChar (c : Char) : List Char :=
  if c = doubleQuote then [c] else escapeChar isPlainByte singleQuote c

/-- The literal of bytes that can be changed, behind a `b`. -/
def quotedBuffer (octets : List UInt8) : List Char :=
  let quote := quoteFor (octetChars octets)
  'b' :: quote :: ((octetChars octets).flatMap escapeBufferChar ++ [quote])

/-- The literal of a text, as a string. -/
def quote (s : String) : String := String.ofList (quoted s.toList)

end TreePath.Text
