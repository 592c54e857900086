import ElementGrammar.Text.Structured
import ElementGrammar.Xsd.Schema

/-!
# Outlines of schemas

Every declaration as a structured value, with its parts under their names.
-/

namespace ElementGrammar.Xsd

open Text (Structured)

def optionalText (s : Option String) : Structured :=
  .optional (s.map .quoted)

def optionalNumber (n : Option Nat) : Structured :=
  .optional (n.map .number)

def textList (texts : List String) : Structured :=
  .list (texts.map .quoted)

/-- The parts that say how often something may occur. -/
def Occurs.outline (o : Occurs) : List (String × Structured) :=
  [("min_occurs", .number o.least), ("max_occurs", optionalNumber o.greatest)]

def SimpleKind.outline : SimpleKind → Structured
  | .length base least greatest =>
    .record "Length"
      [("base", .quoted base), ("min_length", optionalNumber least),
       ("max_length", optionalNumber greatest)]
  | .enumeration base values =>
    .record "Enum" [("base", .quoted base), ("values", textList values)]
  | .list itemType => .record "List" [("item_type", .quoted itemType)]
  | .union memberTypes => .record "Union" [("member_types", textList memberTypes)]
  | .alias base => .record "Alias" [("base", .quoted base)]

def SimpleType.outline (t : SimpleType) : Structured :=
  .record "SimpleType"
    [("name", optionalText t.name), ("doc", .quoted t.doc), ("kind", t.kind.outline)]

def AttributeType.outline : AttributeType → Structured
  | .named name => .tuple "Ref" [.quoted name]
  | .given type => .tuple "Def" [type.outline]

def AttributeDecl.outline (d : AttributeDecl) : Structured :=
  .record "Attribute"
    [("name", .quoted d.name), ("doc", .quoted d.doc), ("ty", d.type.outline),
     ("use_", optionalText d.usage), ("default", optionalText d.default)]

def attributeList (attributes : List AttributeDecl) : Structured :=
  .list (attributes.map AttributeDecl.outline)

def AttributeGroup.outline (g : AttributeGroup) : Structured :=
  .record "AttributeGroup"
    [("name", .quoted g.name), ("attributes", attributeList g.attributes)]

mutual

def ElementDecl.outline : ElementDecl → Structured
  | ⟨name, doc, type, occurs⟩ =>
    .record "Element"
      ([("name", optionalText name), ("doc", .quoted doc), ("ty", type.outline)]
        ++ occurs.outline)

def ElementType.outline : ElementType → Structured
  | .named name => .tuple "Ref" [.quoted name]
  | .given type => .tuple "Def" [type.outline]

def ComplexType.outline : ComplexType → Structured
  | ⟨name, doc, base, attributeGroups, attributes, content⟩ =>
    .record "ComplexType"
      [("name", optionalText name), ("doc", .quoted doc), ("base", optionalText base),
       ("attribute_groups", textList attributeGroups),
       ("attributes", attributeList attributes), ("content", content.outline)]

def Content.outline : Content → Structured
  | .sequence s => .tuple "Sequence" [s.outline]
  | .choice c => .tuple "Choice" [c.outline]
  | .none => .atom "None"

def Sequence.outline : Sequence → Structured
  | ⟨doc, occurs, elements⟩ =>
    .record "Sequence"
      ([("doc", .quoted doc)] ++ occurs.outline
        ++ [("elements", .list (elementOutlines elements))])

def Choice.outline : Choice → Structured
  | ⟨elements⟩ => .record "Choice" [("elements", .list (elementOutlines elements))]

def elementOutlines : List ElementDecl → List Structured
  | [] => []
  | e :: es => e.outline :: elementOutlines es

end

def SchemaItem.outline : SchemaItem → Structured
  | .element e => .tuple "Element" [e.outline]
  | .complexType t => .tuple "ComplexType" [t.outline]
  | .simpleType t => .tuple "SimpleType" [t.outline]
  | .attributeGroup g => .tuple "AttributeGroup" [g.outline]

def Schema.outline (s : Schema) : Structured :=
  .record "Schema"
    [("target_namespace", optionalText s.targetNamespace), ("doc", .quoted s.doc),
     ("items", .list (s.items.map SchemaItem.outline))]

end ElementGrammar.Xsd
