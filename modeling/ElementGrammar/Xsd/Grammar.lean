import ElementGrammar.Rule.Basic
import ElementGrammar.Text.Scalar
import ElementGrammar.Xsd.Schema

/-!
# The grammar of schemas

A rule for each kind of declaration.  Each rule asks for the name of its element
first and takes what it knows; `Rule.run` refuses what is left.

Where a declaration can be written in several ways its rule tries them one after
the other.  In which order, at each such place, is an `Arrangement`;
`Arrangement.declared` is the one in which this module lists them.

Elements, complex types, sequences and choices hold each other, so the rule of an
element is built to a number of levels (`ElementDecl.ruleWithin`).  A rule that
starts on an element takes one level more than its tree is high, so the last level
is out of reach.
-/

namespace ElementGrammar.Xsd

/-! ## Arrangements -/

/-- A place of the grammar where there are alternatives. -/
inductive ChoicePoint where
  | attributeType
  | elementType
  | complexForm
  | content
  | simpleKind
  | facets
  | schemaItem
  deriving DecidableEq, Repr

def ChoicePoint.size : ChoicePoint → Nat
  | .attributeType => 2
  | .elementType => 2
  | .complexForm => 2
  | .content => 3
  | .simpleKind => 4
  | .facets => 2
  | .schemaItem => 4

/-- The order in which the alternatives of each place are tried, by their
numbers. -/
abbrev Arrangement := ChoicePoint → List Nat

/-- Every place tries its alternatives as they are listed. -/
def Arrangement.declared : Arrangement :=
  fun point => List.range point.size

/-- The alternatives of a place, in the order of the arrangement. -/
def Arrangement.oneOf {α : Type} (a : Arrangement) (point : ChoicePoint)
    (rules : List (Rule α)) : Rule α :=
  Rule.oneOf ((a point).filterMap (rules[·]?))

/-! ## Documentation and occurrence -/

/-- The documentation of an annotation: its text without the blanks around it. -/
def annotation : Rule String := do
  Rule.matchName "annotation"
  Rule.child do
    Rule.matchName "documentation"
    return Text.trim (← Rule.text)

/-- The documentation of the first child that is an annotation with one. -/
def documentation : Rule String := do
  return (← Rule.childOpt annotation).getD ""

/-- The least number of occurrences, which is one where nothing is said. -/
def minOccurs : Rule Nat := do
  return (← Rule.attrReadOpt Text.readCount "minOccurs").getD 1

/-- The greatest number of occurrences, which is one where nothing is said. -/
def maxOccurs : Rule (Option Nat) := do
  match ← Rule.takeAttr "maxOccurs" with
  | none => return some 1
  | some value =>
    if value = "unbounded" then return none
    else return some (← Rule.readValue Text.readCount "maxOccurs" value)

/-- How often an element or sequence may occur. -/
def Occurs.rule : Rule Occurs := do
  let least ← minOccurs
  let greatest ← maxOccurs
  return ⟨least, greatest⟩

/-! ## Simple types -/

def facet (name : String) : Rule Nat := do
  Rule.matchName name
  Rule.attrRead Text.readCount "value"

/-- Bounds on a length, one of them at least. -/
def lengthFacets (base : String) : Rule SimpleKind := do
  let least ← Rule.childOpt (facet "minLength")
  let greatest ← Rule.childOpt (facet "maxLength")
  if least.isNone && greatest.isNone then
    Rule.fail "No length restriction given"
  else return .length base least greatest

def enumerationValue : Rule String := do
  Rule.matchName "enumeration"
  Rule.attr "value"

/-- Listed values, one of them at least. -/
def enumerationFacets (base : String) : Rule SimpleKind := do
  return .enumeration base (← Rule.children enumerationValue)

/-- A restriction that says something. -/
def restriction (a : Arrangement) : Rule SimpleKind := do
  Rule.matchName "restriction"
  let base ← Rule.attr "base"
  a.oneOf .facets [lengthFacets base, enumerationFacets base]

def listType : Rule SimpleKind := do
  Rule.matchName "list"
  return .list (← Rule.attr "itemType")

def unionType : Rule SimpleKind := do
  Rule.matchName "union"
  return .union (Text.words (← Rule.attr "memberTypes"))

/-- A restriction that says nothing. -/
def aliasType : Rule SimpleKind := do
  Rule.matchName "restriction"
  return .alias (← Rule.attr "base")

def SimpleType.rule (a : Arrangement) : Rule SimpleType := do
  Rule.matchName "simpleType"
  let name ← Rule.takeAttr "name"
  let doc ← documentation
  let kind ← a.oneOf .simpleKind
    [Rule.child (restriction a), Rule.child listType, Rule.child unionType,
      Rule.child aliasType]
  return ⟨name, doc, kind⟩

/-! ## Attributes -/

def AttributeType.rule (a : Arrangement) : Rule AttributeType :=
  a.oneOf .attributeType
    [do return .named (← Rule.attr "type"),
      do return .given (← Rule.child (SimpleType.rule a))]

def AttributeDecl.rule (a : Arrangement) : Rule AttributeDecl := do
  Rule.matchName "attribute"
  Rule.blankText
  let type ← AttributeType.rule a
  let name ← Rule.attr "name"
  let doc ← documentation
  let usage ← Rule.takeAttr "use"
  let default ← Rule.takeAttr "default"
  return ⟨name, doc, type, usage, default⟩

/-- Attributes under one name, one of them at least. -/
def AttributeGroup.rule (a : Arrangement) : Rule AttributeGroup := do
  Rule.matchName "attributeGroup"
  let name ← Rule.attr "name"
  let attributes ← Rule.children (AttributeDecl.rule a)
  return ⟨name, attributes⟩

/-- The name of a group that is used. -/
def attributeGroupRef : Rule String := do
  Rule.matchName "attributeGroup"
  Rule.attr "ref"

/-! ## Complex types and elements -/

/-- Elements one after the other, given the rule for an element. -/
def Sequence.ruleOver (inner : Rule ElementDecl) : Rule Sequence := do
  Rule.matchName "sequence"
  Rule.dropChildrenNamed "any"
  let doc ← documentation
  let occurs ← Occurs.rule
  let elements ← Rule.children inner
  return ⟨doc, occurs, elements⟩

def Choice.ruleOver (inner : Rule ElementDecl) : Rule Choice := do
  Rule.matchName "choice"
  return ⟨← Rule.children inner⟩

/-- What the elements of a type hold, given the rule for an element. -/
def Content.ruleOver (a : Arrangement) (inner : Rule ElementDecl) : Rule Content :=
  a.oneOf .content
    [do return .sequence (← Rule.child (Sequence.ruleOver inner)),
      do return .choice (← Rule.child (Choice.ruleOver inner)),
      do Rule.ensureDrained; return .none]

def extension (a : Arrangement) (inner : Rule ElementDecl) (name : Option String)
    (doc : String) : Rule ComplexType := do
  Rule.matchName "extension"
  let base ← Rule.attr "base"
  let attributeGroups ← Rule.childrenOpt attributeGroupRef
  let attributes ← Rule.childrenOpt (AttributeDecl.rule a)
  let content ← Content.ruleOver a inner
  return ⟨name, doc, some base, attributeGroups, attributes, content⟩

/-- Content that is an extension of another type. -/
def complexContent (a : Arrangement) (inner : Rule ElementDecl) (name : Option String)
    (doc : String) : Rule ComplexType := do
  Rule.matchName "complexContent"
  Rule.child (extension a inner name doc)

def ownContent (a : Arrangement) (inner : Rule ElementDecl) (name : Option String)
    (doc : String) : Rule ComplexType := do
  let attributeGroups ← Rule.childrenOpt attributeGroupRef
  let attributes ← Rule.childrenOpt (AttributeDecl.rule a)
  Rule.dropChildrenNamed "anyAttribute"
  let content ← Content.ruleOver a inner
  return ⟨name, doc, none, attributeGroups, attributes, content⟩

def ComplexType.ruleOver (a : Arrangement) (inner : Rule ElementDecl) :
    Rule ComplexType := do
  Rule.matchName "complexType"
  Rule.dropAttr "abstract"
  let name ← Rule.takeAttr "name"
  let doc ← documentation
  a.oneOf .complexForm
    [Rule.child (complexContent a inner name doc), ownContent a inner name doc]

def ElementType.ruleOver (a : Arrangement) (inner : Rule ElementDecl) :
    Rule ElementType :=
  a.oneOf .elementType
    [do return .named (← Rule.attr "type"),
      do return .given (← Rule.child (ComplexType.ruleOver a inner))]

/-- A declared element, given the rule for those inside it. -/
def ElementDecl.ruleOver (a : Arrangement) (inner : Rule ElementDecl) :
    Rule ElementDecl := do
  Rule.matchName "element"
  Rule.dropAttr "final"
  Rule.dropAttr "fixed"
  let nillable ← Rule.takeAttr "nillable"
  if nillable.isSome && nillable != some "false" then
    Rule.fail "Nillable elements not supported"
  else
    let type ← ElementType.ruleOver a inner
    let name ← Rule.takeAttr "name"
    let doc ← documentation
    let occurs ← Occurs.rule
    return ⟨name, doc, type, occurs⟩

/-- A declared element with others inside it to a number of levels. -/
def ElementDecl.ruleWithin (a : Arrangement) : (levels : Nat) → Rule ElementDecl
  | 0 => Rule.fail "Elements are nested too deeply"
  | levels + 1 => ElementDecl.ruleOver a (ElementDecl.ruleWithin a levels)

/-- Runs a rule that is built to a number of levels, with as many as the element
can need. -/
def withLevels {α : Type} (rule : Rule ElementDecl → Rule α) (a : Arrangement) : Rule α := do
  let e ← Rule.element
  rule (ElementDecl.ruleWithin a (e.height + 1))

def ElementDecl.rule (a : Arrangement) : Rule ElementDecl :=
  withLevels (ElementDecl.ruleOver a) a

def ComplexType.rule (a : Arrangement) : Rule ComplexType :=
  withLevels (ComplexType.ruleOver a) a

def Sequence.rule (a : Arrangement) : Rule Sequence :=
  withLevels Sequence.ruleOver a

def Choice.rule (a : Arrangement) : Rule Choice :=
  withLevels Choice.ruleOver a

/-! ## Schemas -/

def SchemaItem.ruleOver (a : Arrangement) (inner : Rule ElementDecl) :
    Rule SchemaItem :=
  a.oneOf .schemaItem
    [do return .element (← inner),
      do return .complexType (← ComplexType.ruleOver a inner),
      do return .simpleType (← SimpleType.rule a),
      do return .attributeGroup (← AttributeGroup.rule a)]

def Schema.ruleOver (a : Arrangement) (inner : Rule ElementDecl) : Rule Schema := do
  Rule.matchName "schema"
  Rule.dropAttrsFrom "xmlns"
  Rule.dropAttr "elementFormDefault"
  Rule.dropAttr "attributeFormDefault"
  Rule.dropAttr "version"
  let targetNamespace ← Rule.takeAttr "targetNamespace"
  Rule.dropChildrenNamed "import"
  Rule.dropChildrenNamed "include"
  let doc ← documentation
  Rule.dropChildrenNamed "annotation"
  let items ← Rule.childrenOpt (SchemaItem.ruleOver a inner)
  return ⟨targetNamespace, doc, items⟩

def Schema.rule (a : Arrangement) : Rule Schema :=
  withLevels (Schema.ruleOver a) a

end ElementGrammar.Xsd
