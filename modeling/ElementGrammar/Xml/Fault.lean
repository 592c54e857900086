import ElementGrammar.Text.Utf8
import ElementGrammar.Tree.FileError

/-!
# Faults of an XML document

What can be wrong with the bytes of a document before any question about its
elements is asked: an attribute that is not written as one
(`AttributeFault`), a character reference that means no character
(`EntityFault`), and markup that does not end or nest (`Fault`).  Each has a
sentence (`message`) and a form as a value (`structured`).
-/

namespace ElementGrammar.Xml

open Text (Malformed Structured)

/-- What is wrong with the attributes of a tag.  Positions count bytes from
just after the opening angle bracket. -/
inductive AttributeFault where
  /-- The name is not followed by an equals sign. -/
  | expectedEquals (position : Nat)
  /-- The tag ends after the equals sign. -/
  | expectedValue (position : Nat)
  /-- The value does not start with a quote. -/
  | unquotedValue (position : Nat)
  /-- The value does not end with the quote that it starts with. -/
  | expectedQuote (position : Nat) (quote : UInt8)
  deriving DecidableEq, Repr

/-- What is wrong with a reference.  Positions count bytes of the text that
holds the reference. -/
inductive EntityFault where
  /-- The number of a character reference is zero. -/
  | null (start stop : Nat)
  /-- No entity has this name. -/
  | unknown (start stop : Nat) (name : String)
  /-- No semicolon ends the reference. -/
  | unterminated (start stop : Nat)
  /-- More hexadecimal digits than any character needs. -/
  | longHexadecimal
  | hexadecimalDigit (digit : UInt8)
  /-- More decimal digits than any character needs. -/
  | longDecimal
  | decimalDigit (digit : UInt8)
  /-- A number that is the number of no character. -/
  | codepoint (number : Nat)
  deriving DecidableEq, Repr

/-- A construct that a document can end in the middle of. -/
inductive Construct where
  /-- Markup that starts with an exclamation mark, before its kind is known. -/
  | bang
  | comment
  | cdata
  | doctype
  | declaration
  deriving DecidableEq, Repr

inductive Fault where
  /-- The input ends inside a construct, or the construct is not spelled as
  one. -/
  | unexpectedEnd (construct : Construct)
  /-- An exclamation mark with a byte after it that opens no construct. -/
  | unexpectedBang (byte : UInt8)
  | emptyDoctype
  /-- A closing tag that does not name the innermost open element. -/
  | mismatchedEnd (expected found : String)
  | undecodable (malformed : Malformed)
  | badAttribute (fault : AttributeFault)
  | badEntity (fault : EntityFault)
  /-- No bytes can be had. -/
  | unreadable (error : FileError)
  deriving DecidableEq, Repr

/-- A byte read as the character of the same number. -/
def byteChar (b : UInt8) : Char :=
  Char.ofNat b.toNat

/-! ## Sentences -/

def AttributeFault.message : AttributeFault → String
  | .expectedEquals position =>
    s!"position {position}: attribute key must be directly followed by `=` or space"
  | .expectedValue position =>
    s!"position {position}: `=` must be followed by an attribute value"
  | .unquotedValue position =>
    s!"position {position}: attribute value must be enclosed in `\"` or `'`"
  | .expectedQuote position quote =>
    s!"position {position}: missing closing quote `" ++ (byteChar quote).toString
      ++ "` in attribute value"

/-- A span of bytes, the end not included. -/
def span (start stop : Nat) : String :=
  toString start ++ ".." ++ toString stop

/-- The opening of a sentence about a span. -/
def atSpan (start stop : Nat) : String :=
  "Error while escaping character at range " ++ span start stop ++ ": "

def EntityFault.message : EntityFault → String
  | .null start stop => atSpan start stop ++ "Null character entity not allowed"
  | .unknown start stop name =>
    atSpan start stop ++ "Unrecognized escape symbol: " ++ Text.quoteText name
  | .unterminated start stop => atSpan start stop ++ "Cannot find ';' after '&'"
  | .longHexadecimal => "Cannot convert hexadecimal to utf8"
  | .hexadecimalDigit digit =>
    "'" ++ (byteChar digit).toString ++ "' is not a valid hexadecimal character"
  | .longDecimal => "Cannot convert decimal to utf8"
  | .decimalDigit digit =>
    "'" ++ (byteChar digit).toString ++ "' is not a valid decimal character"
  | .codepoint number => s!"'{number}' is not a valid codepoint"

def Construct.name : Construct → String
  | .bang => "Bang"
  | .comment => "Comment"
  | .cdata => "CData"
  | .doctype => "DOCTYPE"
  | .declaration => "XmlDecl"

def Fault.message : Fault → String
  | .unexpectedEnd construct => "Unexpected EOF during reading " ++ construct.name
  | .unexpectedBang byte =>
    "Only Comment (`--`), CDATA (`[CDATA[`) and DOCTYPE (`DOCTYPE`) nodes can start "
      ++ "with a '!', but symbol `" ++ (byteChar byte).toString ++ "` found"
  | .emptyDoctype => "DOCTYPE declaration must not be empty"
  | .mismatchedEnd expected found =>
    "Expecting </" ++ expected ++ "> found </" ++ found ++ ">"
  | .undecodable malformed => "Malformed UTF-8 input: " ++ malformed.message
  | .badAttribute fault => "error while parsing attribute: " ++ fault.message
  | .badEntity fault => fault.message
  | .unreadable error => "I/O error: " ++ error.message

/-! ## Values -/

def AttributeFault.structured : AttributeFault → Structured
  | .expectedEquals position => .tuple "ExpectedEq" [.number position]
  | .expectedValue position => .tuple "ExpectedValue" [.number position]
  | .unquotedValue position => .tuple "UnquotedValue" [.number position]
  | .expectedQuote position quote =>
    .tuple "ExpectedQuote" [.number position, .number quote.toNat]

def EntityFault.structured : EntityFault → Structured
  | .null start stop => .tuple "EntityWithNull" [.atom (span start stop)]
  | .unknown start stop name =>
    .tuple "UnrecognizedSymbol" [.atom (span start stop), .quoted name]
  | .unterminated start stop => .tuple "UnterminatedEntity" [.atom (span start stop)]
  | .longHexadecimal => .atom "TooLongHexadecimal"
  | .hexadecimalDigit digit =>
    .tuple "InvalidHexadecimal" [.atom (Text.quoteChar (byteChar digit))]
  | .longDecimal => .atom "TooLongDecimal"
  | .decimalDigit digit => .tuple "InvalidDecimal" [.atom (Text.quoteChar (byteChar digit))]
  | .codepoint number => .tuple "InvalidCodepoint" [.number number]

def Fault.structured : Fault → Structured
  | .unexpectedEnd construct => .tuple "UnexpectedEof" [.quoted construct.name]
  | .unexpectedBang byte => .tuple "UnexpectedBang" [.number byte.toNat]
  | .emptyDoctype => .atom "EmptyDocType"
  | .mismatchedEnd expected found =>
    .record "EndEventMismatch" [("expected", .quoted expected), ("found", .quoted found)]
  | .undecodable malformed => .tuple "NonDecodable" [.optional (some malformed.structured)]
  | .badAttribute fault => .tuple "InvalidAttr" [fault.structured]
  | .badEntity fault => .tuple "EscapeError" [fault.structured]
  | .unreadable error => .tuple "Io" [error.structured]

end ElementGrammar.Xml
