import ElementGrammar.Tree.Element
import ElementGrammar.Xml.Fault

/-!
# Errors of a tree

Why there is no element: it may not be built from the given parts, the
document it is read from says something that a tree cannot hold, the document
is not XML, or there is no document.  `Element.new?` is the one way to build an
element that is checked.
-/

namespace ElementGrammar

open Text (Malformed Structured)

/-- A node that an element may not hold. -/
inductive NodeKind where
  | cdata
  | instruction
  deriving DecidableEq, Repr

/-- Why there is no element. -/
inductive TreeError where
  | emptyName
  | mixedContent (name : String)
  | duplicateAttribute (element name first second : String)
  /-- A node that is not supported inside an element. -/
  | unsupportedNode (element : String) (kind : NodeKind)
  | textOutsideRoot (text : String)
  /-- A second element outside of all others. -/
  | multipleRoots (first second : String)
  | noRoot
  /-- The document ends inside an element. -/
  | unclosedElement (name : String)
  /-- A closing tag where no element is open. -/
  | unexpectedClose (name : String)
  | file (error : FileError)
  /-- A name that is not UTF-8, with its bytes. -/
  | invalidName (malformed : Malformed) (bytes : List UInt8)
  /-- A fault of the document, at the byte where the construct starts. -/
  | xml (fault : Xml.Fault) (position : Nat)
  deriving DecidableEq, Repr, Inhabited

namespace Element

/-- Builds an element, unless its name is empty or it has both child elements
and a text. -/
def new? (name : String) (attrs : Attributes) (children : List Element)
    (text : Option String) : Except TreeError Element :=
  if name.isEmpty then .error .emptyName
  else if !children.isEmpty && text.isSome then .error (.mixedContent name)
  else .ok ⟨name, attrs, children, text⟩

end Element

/-! ## Sentences -/

def NodeKind.name : NodeKind → String
  | .cdata => "CDATA section"
  | .instruction => "processing instruction"

namespace TreeError

def message : TreeError → String
  | .emptyName => "element name must be non-empty"
  | .mixedContent name => s!"mixed content is not supported (element `{name}`)"
  | .duplicateAttribute element name first second =>
    s!"element `{element}` contains duplicate attribute `{name}` "
      ++ s!"(values `{first}` and `{second}`)"
  | .unsupportedNode element kind =>
    s!"element `{element}` contains unsupported {kind.name}"
  | .textOutsideRoot text => s!"text outside of root element: `{text}`"
  | .multipleRoots first second =>
    s!"found second root element `{second}` after root element `{first}`"
  | .noRoot => "document contains no root element"
  | .unclosedElement name => s!"unexpected end of input: `{name}` is not closed"
  | .unexpectedClose name => s!"closing tag `{name}` has no opening tag"
  | .file error => error.message
  | .invalidName malformed bytes =>
    malformed.message ++ " for string `" ++ Text.Utf8.decodeLossy bytes ++ "`"
  | .xml fault position => s!"XML error at byte {position}: " ++ fault.message

/-- The sentence of the error underneath, if there is one. -/
def cause? : TreeError → Option String
  | .file error => some error.message
  | .invalidName malformed _ => some malformed.message
  | .xml fault _ => some fault.message
  | _ => none

end TreeError

/-! ## Values -/

namespace TreeError

def structured : TreeError → Structured
  | .emptyName => .atom "EmptyName"
  | .mixedContent name => .tuple "MixedContent" [.quoted name]
  | .duplicateAttribute element name first second =>
    .record "DuplicateAttr"
      [("ele", .quoted element), ("attr", .quoted name), ("first", .quoted first),
       ("second", .quoted second)]
  | .unsupportedNode element kind =>
    .record "UnsupportedNode" [("ele", .quoted element), ("kind", .quoted kind.name)]
  | .textOutsideRoot text => .tuple "TextOutsideRoot" [.quoted text]
  | .multipleRoots first second =>
    .record "MultipleRoots" [("first", .quoted first), ("second", .quoted second)]
  | .noRoot => .atom "NoRoot"
  | .unclosedElement name => .tuple "UnclosedElement" [.quoted name]
  | .unexpectedClose name => .tuple "UnexpectedClose" [.quoted name]
  | .file error => .tuple "Io" [error.structured]
  | .invalidName malformed bytes =>
    .tuple "InvalidUtf8" [malformed.structured, .list (bytes.map (.number ·.toNat))]
  | .xml fault position => .tuple "QuickXmlError" [fault.structured, .number position]

end TreeError

end ElementGrammar
