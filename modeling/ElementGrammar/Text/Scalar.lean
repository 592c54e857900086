/-!
# Scalar values written as text

A scalar is an integer of a fixed range, a truth value, a character or a
text.  `ScalarKind.read` reads one and says why it cannot.  An integer is an
optional sign and one or more decimal digits; digits are read from the left,
and the first one that leaves the range ends the reading.
-/

namespace ElementGrammar.Text

/-- Why a text is not a scalar of the wanted kind. -/
inductive ScalarError where
  /-- No text where an integer is wanted. -/
  | emptyInteger
  /-- A character that is no digit, or a sign with no digit after it. -/
  | invalidDigit
  | tooLarge
  | tooSmall
  /-- Neither of the two truth values. -/
  | notBoolean
  /-- No text where a character is wanted. -/
  | noCharacter
  | manyCharacters
  deriving DecidableEq, Repr

def ScalarError.message : ScalarError → String
  | .emptyInteger => "cannot parse integer from empty string"
  | .invalidDigit => "invalid digit found in string"
  | .tooLarge => "number too large to fit in target type"
  | .tooSmall => "number too small to fit in target type"
  | .notBoolean => "provided string was not `true` or `false`"
  | .noCharacter => "cannot parse char from empty string"
  | .manyCharacters => "too many characters in string"

instance : ToString ScalarError := ⟨ScalarError.message⟩

/-- A range of integers, both ends included. -/
structure IntegerRange where
  least : Int
  greatest : Int
  deriving DecidableEq, Repr

namespace IntegerRange

/-- The integers from zero that fit in a number of bits. -/
def unsigned (bits : Nat) : IntegerRange := ⟨0, Int.ofNat (Nat.pow 2 bits) - 1⟩

/-- The integers that fit in a number of bits and a sign. -/
def signed (bits : Nat) : IntegerRange :=
  ⟨-Int.ofNat (Nat.pow 2 bits), Int.ofNat (Nat.pow 2 bits) - 1⟩

end IntegerRange

def digitValue? (c : Char) : Option Nat :=
  if '0' ≤ c ∧ c ≤ '9' then some (c.toNat - '0'.toNat) else none

/-- Reads digits after `value`, counting down for a negative integer. -/
def readDigits (range : IntegerRange) (negative : Bool) :
    Int → List Char → Except ScalarError Int
  | value, [] => .ok value
  | value, c :: cs =>
    match digitValue? c with
    | none => .error .invalidDigit
    | some d =>
      let next := if negative then value * 10 - d else value * 10 + d
      if range.greatest < next then .error .tooLarge
      else if next < range.least then .error .tooSmall
      else readDigits range negative next cs

def readUnsigned (range : IntegerRange) (negative : Bool) (cs : List Char) :
    Except ScalarError Int :=
  if cs.isEmpty then .error .invalidDigit else readDigits range negative 0 cs

/-- Reads an integer of a range.  A minus sign is a digit error where the range
holds no negative integer. -/
def readInteger (range : IntegerRange) (s : String) : Except ScalarError Int :=
  match s.toList with
  | [] => .error .emptyInteger
  | '+' :: cs => readUnsigned range false cs
  | '-' :: cs =>
    if range.least < 0 then readUnsigned range true cs else .error .invalidDigit
  | cs => readUnsigned range false cs

/-- Reads a number of occurrences or characters: an unsigned integer of 32
bits. -/
def readCount (s : String) : Except ScalarError Nat :=
  (readInteger (.unsigned 32) s).map Int.toNat

def readBoolean (s : String) : Except ScalarError Bool :=
  if s = "true" then .ok true
  else if s = "false" then .ok false
  else .error .notBoolean

def readCharacter (s : String) : Except ScalarError Char :=
  match s.toList with
  | [] => .error .noCharacter
  | [c] => .ok c
  | _ => .error .manyCharacters

inductive Scalar where
  | integer (n : Int)
  | boolean (b : Bool)
  | character (c : Char)
  | text (s : String)
  deriving DecidableEq, Repr

/-- What kind of scalar a text is to be read as. -/
inductive ScalarKind where
  | integer (range : IntegerRange)
  | boolean
  | character
  | text
  deriving DecidableEq, Repr

def ScalarKind.read : ScalarKind → String → Except ScalarError Scalar
  | .integer range, s => (readInteger range s).map .integer
  | .boolean, s => (readBoolean s).map .boolean
  | .character, s => (readCharacter s).map .character
  | .text, s => .ok (.text s)

end ElementGrammar.Text
