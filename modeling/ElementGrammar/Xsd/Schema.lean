/-!
# Schemas

What a schema document declares: elements, complex types, simple types and
groups of attributes.  Elements and complex types hold each other, so they are
declared together.
-/

namespace ElementGrammar.Xsd

structure Occurs where
  least : Nat
  /-- The greatest number, where there is one. -/
  greatest : Option Nat
  deriving DecidableEq, Repr

/-! ## Simple types and attributes -/

/-- What a simple type says of its values. -/
inductive SimpleKind where
  /-- Bounds on the length of the values of another type. -/
  | length (base : String) (least greatest : Option Nat)
  /-- Some of the values of another type. -/
  | enumeration (base : String) (values : List String)
  | list (itemType : String)
  /-- The values of any of several types. -/
  | union (memberTypes : List String)
  | alias (base : String)
  deriving DecidableEq, Repr

structure SimpleType where
  name : Option String
  doc : String
  kind : SimpleKind
  deriving DecidableEq, Repr

/-- The type of an attribute: one that has a name, or one that is given here. -/
inductive AttributeType where
  | named (name : String)
  | given (type : SimpleType)
  deriving DecidableEq, Repr

structure AttributeDecl where
  name : String
  doc : String
  type : AttributeType
  /-- Whether the attribute is optional, required or prohibited. -/
  usage : Option String
  default : Option String
  deriving DecidableEq, Repr

/-- Attributes under one name. -/
structure AttributeGroup where
  name : String
  attributes : List AttributeDecl
  deriving DecidableEq, Repr

/-! ## Complex types and elements -/

mutual

structure ElementDecl where
  name : Option String
  doc : String
  type : ElementType
  occurs : Occurs

/-- The type of an element: one that has a name, or one that is given here. -/
inductive ElementType where
  | named (name : String)
  | given (type : ComplexType)

structure ComplexType where
  name : Option String
  doc : String
  /-- The type that this one extends. -/
  base : Option String
  /-- The names of the groups whose attributes the elements have. -/
  attributeGroups : List String
  attributes : List AttributeDecl
  content : Content

/-- What the elements of a type hold. -/
inductive Content where
  | sequence (s : Sequence)
  | choice (c : Choice)
  | none

structure Sequence where
  doc : String
  occurs : Occurs
  elements : List ElementDecl

structure Choice where
  elements : List ElementDecl

end

/-! ## Schemas -/

inductive SchemaItem where
  | element (e : ElementDecl)
  | complexType (t : ComplexType)
  | simpleType (t : SimpleType)
  | attributeGroup (g : AttributeGroup)

structure Schema where
  targetNamespace : Option String
  doc : String
  items : List SchemaItem

end ElementGrammar.Xsd
