import ElementGrammar.Xml.Fault

/-!
# References in text

A reference starts with an ampersand and ends with the next semicolon.  It
names one of five characters, or gives the number of any character but NUL in
decimal or, after an `x`, in hexadecimal.  `unescape` puts the characters in
place of the references; a reference without an end, without a meaning or with
another ampersand inside is a fault.  Positions count bytes.
-/

namespace ElementGrammar.Xml

/-- The character that a name stands for. -/
def namedEntity? : String → Option Char
  | "lt" => some '<'
  | "gt" => some '>'
  | "amp" => some '&'
  | "apos" => some '\''
  | "quot" => some '"'
  | _ => none

def decimalValue? (b : UInt8) : Option Nat :=
  if '0'.toUInt8 ≤ b ∧ b ≤ '9'.toUInt8 then some (b.toNat - '0'.toNat) else none

/-- The value of a hexadecimal digit of either case. -/
def hexadecimalValue? (b : UInt8) : Option Nat :=
  if 'a'.toUInt8 ≤ b ∧ b ≤ 'f'.toUInt8 then some (b.toNat - 'a'.toNat + 10)
  else if 'A'.toUInt8 ≤ b ∧ b ≤ 'F'.toUInt8 then some (b.toNat - 'A'.toNat + 10)
  else decimalValue? b

/-- A way to write the number of a character. -/
structure Radix where
  base : Nat
  /-- The most digits that a number may have. -/
  width : Nat
  value? : UInt8 → Option Nat
  tooLong : EntityFault
  badDigit : UInt8 → EntityFault

def Radix.decimal : Radix :=
  ⟨10, 7, decimalValue?, .longDecimal, .decimalDigit⟩

def Radix.hexadecimal : Radix :=
  ⟨16, 6, hexadecimalValue?, .longHexadecimal, .hexadecimalDigit⟩

namespace Radix

/-- Reads digits after `number`. -/
def digits (r : Radix) : Nat → List UInt8 → Except EntityFault Nat
  | number, [] => .ok number
  | number, b :: bs =>
    match r.value? b with
    | some d => digits r (number * r.base + d) bs
    | none => .error (r.badDigit b)

/-- Reads a number, which is zero where there are no digits. -/
def read (r : Radix) (bytes : List UInt8) : Except EntityFault Nat :=
  if r.width < bytes.length then .error r.tooLong else r.digits 0 bytes

end Radix

/-- Reads the number of a character reference, given without its hash sign. -/
def referenceNumber : List Char → Except EntityFault Nat
  | 'x' :: cs => Radix.hexadecimal.read (Text.Utf8.encode (String.ofList cs))
  | cs => Radix.decimal.read (Text.Utf8.encode (String.ofList cs))

/-- The character that a reference means, given without its ampersand and
semicolon, which are at `start` and `stop`. -/
def resolve (start stop : Nat) : List Char → Except EntityFault Char
  | '#' :: cs =>
    match referenceNumber cs with
    | .error fault => .error fault
    | .ok number =>
      if number = 0 then .error (.null start stop)
      else if number.isValidChar then .ok (Char.ofNat number)
      else .error (.codepoint number)
  | cs =>
    match namedEntity? (String.ofList cs) with
    | some c => .ok c
    | none => .error (.unknown (start + 1) stop (String.ofList cs))

/-- Unescapes the rest of a text of `total` bytes from position `pos`.  Inside
a reference, `reference` holds its start and what has been read of it. -/
def unescapeFrom (total : Nat) :
    (pos : Nat) → (reference : Option (Nat × List Char)) → List Char →
      Except EntityFault (List Char)
  | _, none, [] => .ok []
  | _, some (start, _), [] => .error (.unterminated start total)
  | pos, none, c :: cs =>
    if c = '&' then unescapeFrom total (pos + 1) (some (pos, [])) cs
    else (unescapeFrom total (pos + c.utf8Size) none cs).map (c :: ·)
  | pos, some (start, body), c :: cs =>
    if c = ';' then
      match resolve start pos body with
      | .error fault => .error fault
      | .ok d => (unescapeFrom total (pos + 1) none cs).map (d :: ·)
    else if c = '&' then .error (.unterminated start total)
    else unescapeFrom total (pos + c.utf8Size) (some (start, body ++ [c])) cs

/-- The text with each reference replaced by its character. -/
def unescape (s : String) : Except EntityFault String :=
  (unescapeFrom s.utf8ByteSize 0 none s.toList).map String.ofList

/-- The text that the bytes of a document mean. -/
def readText (bytes : List UInt8) : Except Fault String :=
  match Text.Utf8.decode bytes with
  | .error malformed => .error (.undecodable malformed)
  | .ok s => (unescape s).mapError .badEntity

end ElementGrammar.Xml
