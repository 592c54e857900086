import ElementGrammar.Xsd.Grammar
import ElementGrammar.Xsd.Outline

/-!
# Rules of the grammar by name

Every rule of the grammar that can be asked for on its own, with the value that
it gives.
-/

namespace ElementGrammar.Xsd

inductive RuleName where
  | schema
  | element
  | complexType
  | simpleType
  | attribute
  | attributeGroup
  | sequence
  | choice
  | documentation
  | minOccurs
  | maxOccurs
  deriving DecidableEq, Repr

inductive Declared where
  | schema (s : Schema)
  | element (e : ElementDecl)
  | complexType (t : ComplexType)
  | simpleType (t : SimpleType)
  | attribute (d : AttributeDecl)
  | attributeGroup (g : AttributeGroup)
  | sequence (s : Sequence)
  | choice (c : Choice)
  | documentation (doc : String)
  | minOccurs (n : Nat)
  | maxOccurs (n : Option Nat)

/-- The rule of a name. -/
def RuleName.rule (a : Arrangement) : RuleName → Rule Declared
  | .schema => do return .schema (← Schema.rule a)
  | .element => do return .element (← ElementDecl.rule a)
  | .complexType => do return .complexType (← ComplexType.rule a)
  | .simpleType => do return .simpleType (← SimpleType.rule a)
  | .attribute => do return .attribute (← AttributeDecl.rule a)
  | .attributeGroup => do return .attributeGroup (← AttributeGroup.rule a)
  | .sequence => do return .sequence (← Sequence.rule a)
  | .choice => do return .choice (← Choice.rule a)
  | .documentation => do return .documentation (← Xsd.documentation)
  | .minOccurs => do return .minOccurs (← Xsd.minOccurs)
  | .maxOccurs => do return .maxOccurs (← Xsd.maxOccurs)

/-- The value of a rule as a structured value. -/
def Declared.outline : Declared → Text.Structured
  | .schema s => s.outline
  | .element e => e.outline
  | .complexType t => t.outline
  | .simpleType t => t.outline
  | .attribute d => d.outline
  | .attributeGroup g => g.outline
  | .sequence s => s.outline
  | .choice c => c.outline
  | .documentation doc => .quoted doc
  | .minOccurs n => .number n
  | .maxOccurs n => optionalNumber n

end ElementGrammar.Xsd
