import ElementGrammar.Proofs.Tree.Named
import ElementGrammar.Rule.Basic
import ElementGrammar.Text.Scalar
import ElementGrammar.Xsd.Schema

/-!
# Written declarations

What it is for an element to be a written form of a declaration, without a word on how it
is read: which attributes and children it may have, and what these have to be.

Every form bounds the keys of the attributes and the names of the children
(`Element.Shape`), and says what there is under each key and name.  Children of
different names may stand in any order.

* Annotations and occurrences: `Annotation.Written`, `Documents`, `Occurs.Written`.
* Simple types and attributes: `SimpleKind.Written`, `SimpleType.Written`,
  `AttributeDecl.Written`, `AttributeGroup.Written`.
* Elements and complex types hold each other.  Their forms are given what it is to be a
  written element: `ElementDecl.WrittenOver` and the forms before it.
* Whole schemas: `SchemaItem.WrittenOver`, `Schema.WrittenOver`.
-/

namespace ElementGrammar

/-- An element of a name, with attributes among some keys and children among some names. -/
structure Element.Shape (e : Element) (name : String) (keys names : List String) : Prop where
  name : e.name = name
  attrs : e.attrs.Among keys
  children : NamesIn names e.children

namespace Xsd

/-- An element with one attribute and nothing else. -/
structure Leaf (name key : String) (e : Element) (value : String) : Prop where
  shape : e.Shape name [key] []
  text : e.text = none
  value : e.attrs.value? key = some value

/-- The elements of a name are the written forms of some values, in order, and there are
not more of them than one rule can take. -/
structure Listed {α : Type} (Form : Element → α → Prop) (name : String) (cs : List Element)
    (vs : List α) : Prop where
  forms : List.Forall₂ Form (named name cs) vs
  length : vs.length ≤ Rule.unlimited

/-! ## Annotations and occurrences -/

structure Documentation.Written (e : Element) (doc : String) : Prop where
  shape : e.Shape "documentation" [] []
  doc : doc = Text.trim (e.text.getD "")

/-- An annotation that holds one documentation and nothing else. -/
structure Annotation.Written (e : Element) (doc : String) : Prop where
  shape : e.Shape "annotation" [] ["documentation"]
  text : e.text = none
  documentation : List.Forall₂ Documentation.Written (named "documentation" e.children) [doc]

/-- Children with one annotation at most, which gives the documentation. -/
def Documents (cs : List Element) (doc : String) : Prop :=
  ∃ o : Option String,
    List.Forall₂ Annotation.Written (named "annotation" cs) o.toList ∧ o.getD "" = doc

/-- The documentation of the first annotation that has one. -/
inductive FirstDocumented : List Element → String → Prop where
  | none : FirstDocumented [] ""
  | here {c : Element} {cs : List Element} {doc : String} (h : Annotation.Written c doc) :
    FirstDocumented (c :: cs) doc
  | later {c : Element} {cs : List Element} {doc : String}
    (h : ∀ doc, ¬ Annotation.Written c doc) (hrest : FirstDocumented cs doc) :
    FirstDocumented (c :: cs) doc

/-- A least number of occurrences as it is written. -/
def leastOf : Option String → Option Nat
  | none => some 1
  | some value => (Text.readCount value).toOption

/-- A greatest number of occurrences as it is written. -/
def greatestOf : Option String → Option (Option Nat)
  | none => some (some 1)
  | some value =>
    if value = "unbounded" then some none else (Text.readCount value).toOption.map some

structure Occurs.Written (as : Attributes) (o : Occurs) : Prop where
  least : leastOf (as.value? "minOccurs") = some o.least
  greatest : greatestOf (as.value? "maxOccurs") = some o.greatest

/-! ## Simple types and attributes -/

/-- A facet of a name with a number. -/
def Facet (name : String) (e : Element) (n : Nat) : Prop :=
  ∃ value, Leaf name "value" e value ∧ Text.readCount value = .ok n

/-- The name of the element that a kind of simple type is written as. -/
def SimpleKind.element : SimpleKind → String
  | .length .. | .enumeration .. | .alias .. => "restriction"
  | .list .. => "list"
  | .union .. => "union"

inductive SimpleKind.Written (e : Element) : SimpleKind → Prop where
  | length {base : String} {least greatest : Option Nat}
    (shape : e.Shape "restriction" ["base"] ["minLength", "maxLength"])
    (text : e.text = none) (hbase : e.attrs.value? "base" = some base)
    (hleast : List.Forall₂ (Facet "minLength") (named "minLength" e.children) least.toList)
    (hgreatest : List.Forall₂ (Facet "maxLength") (named "maxLength" e.children)
      greatest.toList)
    (bounded : ¬(least = none ∧ greatest = none)) :
    Written e (.length base least greatest)
  | enumeration {base : String} {values : List String}
    (shape : e.Shape "restriction" ["base"] ["enumeration"])
    (text : e.text = none) (hbase : e.attrs.value? "base" = some base)
    (hvalues : Listed (Leaf "enumeration" "value") "enumeration" e.children values)
    (nonempty : values ≠ []) :
    Written e (.enumeration base values)
  | list {itemType : String} (leaf : Leaf "list" "itemType" e itemType) :
    Written e (.list itemType)
  | union {value : String} (leaf : Leaf "union" "memberTypes" e value) :
    Written e (.union (Text.words value))
  | unrestricted {base : String} (leaf : Leaf "restriction" "base" e base) :
    Written e (.alias base)

structure SimpleType.Written (e : Element) (t : SimpleType) : Prop where
  shape : e.Shape "simpleType" ["name"] ["annotation", t.kind.element]
  text : e.text = none
  name : e.attrs.value? "name" = t.name
  doc : Documents e.children t.doc
  kind : List.Forall₂ SimpleKind.Written (named t.kind.element e.children) [t.kind]

def AttributeType.name? : AttributeType → Option String
  | .named name => some name
  | .given _ => none

def AttributeType.given? : AttributeType → Option SimpleType
  | .named _ => none
  | .given type => some type

/-- The type is named by an attribute, or else it is given by a child. -/
structure AttributeDecl.Written (e : Element) (d : AttributeDecl) : Prop where
  shape : e.Shape "attribute" ["type", "name", "use", "default"] ["simpleType", "annotation"]
  text : Text.isBlankText (e.text.getD "") = true
  typeName : e.attrs.value? "type" = d.type.name?
  type : List.Forall₂ SimpleType.Written (named "simpleType" e.children) d.type.given?.toList
  name : e.attrs.value? "name" = some d.name
  doc : Documents e.children d.doc
  usage : e.attrs.value? "use" = d.usage
  default : e.attrs.value? "default" = d.default

structure AttributeGroup.Written (e : Element) (g : AttributeGroup) : Prop where
  shape : e.Shape "attributeGroup" ["name"] ["attribute"]
  text : e.text = none
  name : e.attrs.value? "name" = some g.name
  attributes : Listed AttributeDecl.Written "attribute" e.children g.attributes
  nonempty : g.attributes ≠ []

/-! ## Elements and complex types -/

def ElementType.name? : ElementType → Option String
  | .named name => some name
  | .given _ => none

def ElementType.given? : ElementType → Option ComplexType
  | .named _ => none
  | .given type => some type

def Content.sequence? : Content → Option Sequence
  | .sequence s => some s
  | _ => .none

def Content.choice? : Content → Option Choice
  | .choice c => some c
  | _ => .none

section Over

-- `Inner` is what it is to be a written element.
variable (Inner : Element → ElementDecl → Prop)

/-- Wildcards may stand anywhere in a sequence. -/
structure Sequence.WrittenOver (e : Element) (s : Sequence) : Prop where
  shape : e.Shape "sequence" ["minOccurs", "maxOccurs"] ["any", "annotation", "element"]
  text : e.text = none
  doc : Documents e.children s.doc
  occurs : s.occurs.Written e.attrs
  elements : Listed Inner "element" e.children s.elements
  nonempty : s.elements ≠ []

structure Choice.WrittenOver (e : Element) (c : Choice) : Prop where
  shape : e.Shape "choice" [] ["element"]
  text : e.text = none
  elements : Listed Inner "element" e.children c.elements
  nonempty : c.elements ≠ []

/-- Children with a sequence, with a choice, or with neither. -/
structure Content.WrittenOver (cs : List Element) (c : Content) : Prop where
  sequence : List.Forall₂ (Sequence.WrittenOver Inner) (named "sequence" cs) c.sequence?.toList
  choice : List.Forall₂ (Choice.WrittenOver Inner) (named "choice" cs) c.choice?.toList

/-- Children with the attributes and the content of a complex type. -/
structure ComplexType.MembersOver (cs : List Element) (t : ComplexType) : Prop where
  groups : Listed (Leaf "attributeGroup" "ref") "attributeGroup" cs t.attributeGroups
  attributes : Listed AttributeDecl.Written "attribute" cs t.attributes
  content : Content.WrittenOver Inner cs t.content

structure Extension.WrittenOver (e : Element) (t : ComplexType) : Prop where
  shape : e.Shape "extension" ["base"] ["attributeGroup", "attribute", "sequence", "choice"]
  text : e.text = none
  base : e.attrs.value? "base" = t.base
  extended : t.base ≠ none
  members : ComplexType.MembersOver Inner e.children t

structure ComplexContent.WrittenOver (e : Element) (t : ComplexType) : Prop where
  shape : e.Shape "complexContent" [] ["extension"]
  text : e.text = none
  extension : List.Forall₂ (Extension.WrittenOver Inner) (named "extension" e.children) [t]

/-- The two ways to write what a complex type is: an extension of another type, or
members of its own. -/
inductive ComplexType.BodyOver (cs : List Element) (t : ComplexType) : Prop where
  | extension (names : NamesIn ["annotation", "complexContent"] cs)
    (content : List.Forall₂ (ComplexContent.WrittenOver Inner) (named "complexContent" cs) [t])
  | own
    (names : NamesIn
      ["annotation", "attributeGroup", "attribute", "anyAttribute", "sequence", "choice"] cs)
    (base : t.base = none) (members : ComplexType.MembersOver Inner cs t)

structure ComplexType.WrittenOver (e : Element) (t : ComplexType) : Prop where
  element : e.name = "complexType"
  attrs : e.attrs.Among ["abstract", "name"]
  text : e.text = none
  name : e.attrs.value? "name" = t.name
  doc : Documents e.children t.doc
  body : ComplexType.BodyOver Inner e.children t

/-- The type is named by an attribute, or else it is given by a child. -/
structure ElementDecl.WrittenOver (e : Element) (d : ElementDecl) : Prop where
  shape : e.Shape "element"
    ["final", "fixed", "nillable", "type", "name", "minOccurs", "maxOccurs"]
    ["complexType", "annotation"]
  text : e.text = none
  nillable : e.attrs.value? "nillable" ∈ [none, some "false"]
  typeName : e.attrs.value? "type" = d.type.name?
  type : List.Forall₂ (ComplexType.WrittenOver Inner) (named "complexType" e.children)
    d.type.given?.toList
  name : e.attrs.value? "name" = d.name
  doc : Documents e.children d.doc
  occurs : d.occurs.Written e.attrs

/-! ## Schemas -/

def SchemaItem.WrittenOver (e : Element) : SchemaItem → Prop
  | .element d => Inner e d
  | .complexType t => ComplexType.WrittenOver Inner e t
  | .simpleType t => SimpleType.Written e t
  | .attributeGroup g => AttributeGroup.Written e g

/-- The attributes that declare no namespace. -/
def withoutNamespaces (as : Attributes) : Attributes :=
  as.filter fun a => !"xmlns".toList.isPrefixOf a.name.toList

/-- The children that declare something. -/
def declaringChildren (cs : List Element) : List Element :=
  others "annotation" (others "include" (others "import" cs))

structure Schema.WrittenOver (e : Element) (s : Schema) : Prop where
  element : e.name = "schema"
  attrs : (withoutNamespaces e.attrs).Among
    ["elementFormDefault", "attributeFormDefault", "version", "targetNamespace"]
  text : e.text = none
  targetNamespace : (withoutNamespaces e.attrs).value? "targetNamespace" = s.targetNamespace
  doc : FirstDocumented (named "annotation" e.children) s.doc
  items : List.Forall₂ (SchemaItem.WrittenOver Inner) (declaringChildren e.children) s.items
  length : s.items.length ≤ Rule.unlimited

end Over

end Xsd

end ElementGrammar
