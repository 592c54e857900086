import ElementGrammar.Text.Structured

/-!
# UTF-8

Bytes are read by a decoder that stands either at a character boundary or
inside a character, and knows there which bytes may come next.  A byte that
may not come next ends the broken character before it, so every broken
character is as long as the bytes allow.

* `decode` gives the text, or the first broken character (`Malformed`);
* `decodeLossy` writes U+FFFD for each broken character;
* `encode` gives the bytes of a text.
-/

namespace ElementGrammar.Text

/-- The first broken character of a byte string: the bytes before it, and how
many bytes it has.  A length of `none` says that the input ends inside it. -/
structure Malformed where
  validUpTo : Nat
  length : Option Nat
  deriving DecidableEq, Repr

def Malformed.message (m : Malformed) : String :=
  match m.length with
  | some n => s!"invalid utf-8 sequence of {n} bytes from index {m.validUpTo}"
  | none => s!"incomplete utf-8 byte sequence from index {m.validUpTo}"

def Malformed.structured (m : Malformed) : Structured :=
  .record "Utf8Error"
    [("valid_up_to", .number m.validUpTo), ("error_len", .optional (m.length.map .number))]

namespace Utf8

/-- Where a decoder stands. -/
inductive State where
  | boundary
  /-- Inside a character: `seen` bytes are read, `missing + 1` are to come,
  the next one is between `low` and `high`, and `code` is the number read so
  far. -/
  | inside (seen missing : Nat) (low high : UInt8) (code : Nat)

/-- What the first byte of a character says. -/
inductive Lead where
  | whole (c : Char)
  /-- It opens a longer character. -/
  | opens (missing : Nat) (low high : UInt8) (code : Nat)
  | broken

/-- Classifies the first byte of a character.  The bounds on the second byte
leave out overlong forms, surrogates and numbers above U+10FFFF. -/
def lead (b : UInt8) : Lead :=
  if b < 0x80 then .whole (Char.ofNat b.toNat)
  else if b < 0xC2 then .broken
  else if b < 0xE0 then .opens 0 0x80 0xBF (b.toNat - 0xC0)
  else if b < 0xF0 then
    .opens 1 (if b = 0xE0 then 0xA0 else 0x80) (if b = 0xED then 0x9F else 0xBF)
      (b.toNat - 0xE0)
  else if b < 0xF5 then
    .opens 2 (if b = 0xF0 then 0x90 else 0x80) (if b = 0xF4 then 0x8F else 0xBF)
      (b.toNat - 0xF0)
  else .broken

/-- The number of a character after one more of its bytes. -/
def extendCode (code : Nat) (b : UInt8) : Nat :=
  code * 64 + (b.toNat - 0x80)

/-- Decodes from a state, with `valid` bytes of whole characters before it. -/
def decodeFrom (valid : Nat) : State → List UInt8 → Except Malformed (List Char)
  | .boundary, [] => .ok []
  | .inside .., [] => .error ⟨valid, none⟩
  | .boundary, b :: bs =>
    match lead b with
    | .whole c => (decodeFrom (valid + 1) .boundary bs).map (c :: ·)
    | .opens missing low high code =>
      decodeFrom valid (.inside 1 missing low high code) bs
    | .broken => .error ⟨valid, some 1⟩
  | .inside seen missing low high code, b :: bs =>
    if low ≤ b ∧ b ≤ high then
      match missing with
      | 0 =>
        (decodeFrom (valid + seen + 1) .boundary bs).map
          (Char.ofNat (extendCode code b) :: ·)
      | m + 1 => decodeFrom valid (.inside (seen + 1) m 0x80 0xBF (extendCode code b)) bs
    else .error ⟨valid, some seen⟩

/-- The character written for one that is broken. -/
def replacement : Char := '\uFFFD'

/-- What the first byte of a character writes, and where it leaves the
decoder. -/
def enter (b : UInt8) : List Char × State :=
  match lead b with
  | .whole c => ([c], .boundary)
  | .opens missing low high code => ([], .inside 1 missing low high code)
  | .broken => ([replacement], .boundary)

/-- Decodes from a state with a replacement for each broken character. -/
def decodeLossyFrom : State → List UInt8 → List Char
  | .boundary, [] => []
  | .inside .., [] => [replacement]
  | .boundary, b :: bs =>
    let (cs, next) := enter b
    cs ++ decodeLossyFrom next bs
  | .inside seen missing low high code, b :: bs =>
    if low ≤ b ∧ b ≤ high then
      match missing with
      | 0 => Char.ofNat (extendCode code b) :: decodeLossyFrom .boundary bs
      | m + 1 => decodeLossyFrom (.inside (seen + 1) m 0x80 0xBF (extendCode code b)) bs
    else
      let (cs, next) := enter b
      replacement :: cs ++ decodeLossyFrom next bs

/-- The text that the bytes spell, or the first broken character. -/
def decode (bytes : List UInt8) : Except Malformed String :=
  (decodeFrom 0 .boundary bytes).map String.ofList

/-- The text that the bytes spell, with U+FFFD for each broken character. -/
def decodeLossy (bytes : List UInt8) : String :=
  String.ofList (decodeLossyFrom .boundary bytes)

def encode (s : String) : List UInt8 :=
  s.toUTF8.toList

end Utf8

end ElementGrammar.Text
