import ElementGrammar.Proofs.Rule.Plain
import ElementGrammar.Xsd.Entry

/-!
# The grammar of schemas breaks no line

Each rule of the grammar says what it says on one line, in any arrangement: its names and
messages are fixed, and what it quotes besides are values of attributes.
-/

namespace ElementGrammar.Xsd

open Rule
open Text (OneLine oneLine_scalarError)

variable {α : Type} {a : Arrangement} {inner : Rule ElementDecl}

theorem plainSpoken_arrangement {point : ChoicePoint} {rules : List (Rule α)}
    (h : ∀ rule ∈ rules, rule.PlainSpoken) : (a.oneOf point rules).PlainSpoken := by
  refine plain_oneOf fun rule hrule => ?_
  obtain ⟨_, _, hrule⟩ := List.mem_filterMap.mp hrule
  exact h rule (List.mem_of_getElem? hrule)

/-! ## Documentation and occurrence -/

theorem plainSpoken_annotation : annotation.PlainSpoken := by
  unfold annotation
  refine (plainSpoken_matchName (by decide)).then fun _ => plainSpoken_child ?_
  refine (plainSpoken_matchName (by decide)).then fun _ => ?_
  exact plain_text fun _ => trivial

theorem plainSpoken_documentation : documentation.PlainSpoken := by
  unfold documentation
  exact (plainSpoken_childOpt plainSpoken_annotation).then fun _ => trivial

theorem plainSpoken_minOccurs : minOccurs.PlainSpoken := by
  unfold minOccurs
  exact plain_attrReadOpt oneLine_scalarError (by decide) fun _ => trivial

/-- The message quotes the value. -/
theorem plainSpoken_maxOccurs : maxOccurs.PlainSpoken := by
  unfold maxOccurs
  intro found hfound
  cases found with
  | none => trivial
  | some value =>
    show Rule.Plain (if value = "unbounded" then _ else _) _
    split
    · trivial
    · exact plain_readValue oneLine_scalarError (by decide) (hfound value rfl) fun _ => trivial

theorem plainSpoken_occurs : Occurs.rule.PlainSpoken := by
  unfold Occurs.rule
  refine plainSpoken_minOccurs.then fun _ => ?_
  exact plainSpoken_maxOccurs.then fun _ => trivial

/-! ## Simple types -/

theorem plainSpoken_facet {name : String} (h : OneLine name) : (facet name).PlainSpoken := by
  unfold facet
  refine (plainSpoken_matchName h).then fun _ => ?_
  exact plain_attrRead oneLine_scalarError (by decide) fun _ => trivial

theorem plainSpoken_lengthFacets (base : String) : (lengthFacets base).PlainSpoken := by
  unfold lengthFacets
  refine (plainSpoken_childOpt (plainSpoken_facet (by decide))).then fun least => ?_
  refine (plainSpoken_childOpt (plainSpoken_facet (by decide))).then fun greatest => ?_
  split
  · show OneLine _
    decide
  · trivial

theorem plainSpoken_enumerationFacets (base : String) :
    (enumerationFacets base).PlainSpoken := by
  have hvalue : enumerationValue.PlainSpoken := by
    unfold enumerationValue
    exact (plainSpoken_matchName (by decide)).then fun _ => plainSpoken_attr (by decide)
  unfold enumerationFacets
  exact (plainSpoken_children hvalue).then fun _ => trivial

theorem plainSpoken_restriction : (restriction a).PlainSpoken := by
  unfold restriction
  refine (plainSpoken_matchName (by decide)).then fun _ => ?_
  refine (plainSpoken_attr (by decide)).then fun base => plainSpoken_arrangement ?_
  simp [plainSpoken_lengthFacets, plainSpoken_enumerationFacets]

theorem plainSpoken_listType : listType.PlainSpoken := by
  unfold listType
  refine (plainSpoken_matchName (by decide)).then fun _ => ?_
  exact (plainSpoken_attr (by decide)).then fun _ => trivial

theorem plainSpoken_unionType : unionType.PlainSpoken := by
  unfold unionType
  refine (plainSpoken_matchName (by decide)).then fun _ => ?_
  exact (plainSpoken_attr (by decide)).then fun _ => trivial

theorem plainSpoken_aliasType : aliasType.PlainSpoken := by
  unfold aliasType
  refine (plainSpoken_matchName (by decide)).then fun _ => ?_
  exact (plainSpoken_attr (by decide)).then fun _ => trivial

theorem plainSpoken_simpleType : (SimpleType.rule a).PlainSpoken := by
  unfold SimpleType.rule
  refine (plainSpoken_matchName (by decide)).then fun _ => ?_
  refine (plainSpoken_takeAttr "name").then fun name => ?_
  refine plainSpoken_documentation.then fun doc => ?_
  refine PlainSpoken.then (plainSpoken_arrangement ?_) fun _ => trivial
  simp [plainSpoken_child, plainSpoken_restriction, plainSpoken_listType, plainSpoken_unionType,
    plainSpoken_aliasType]

/-! ## Attributes -/

theorem plainSpoken_attributeType : (AttributeType.rule a).PlainSpoken := by
  have hnamed : (attr "type" >>= fun name => Pure.pure (AttributeType.named name)).PlainSpoken :=
    (plainSpoken_attr (by decide)).then fun _ => trivial
  have hgiven : (child (SimpleType.rule a) >>= fun t => Pure.pure (AttributeType.given t)).PlainSpoken :=
    (plainSpoken_child plainSpoken_simpleType).then fun _ => trivial
  refine plainSpoken_arrangement ?_
  rw [List.forall_mem_cons, List.forall_mem_singleton]
  exact ⟨hnamed, hgiven⟩

theorem plainSpoken_attributeDecl : (AttributeDecl.rule a).PlainSpoken := by
  have hblank : blankText.PlainSpoken := plain_blankText trivial
  unfold AttributeDecl.rule
  refine (plainSpoken_matchName (by decide)).then fun _ => ?_
  refine hblank.then fun _ => ?_
  refine plainSpoken_attributeType.then fun type => ?_
  refine (plainSpoken_attr (by decide)).then fun name => ?_
  refine plainSpoken_documentation.then fun doc => ?_
  refine (plainSpoken_takeAttr "use").then fun usage => ?_
  exact (plainSpoken_takeAttr "default").then fun _ => trivial

theorem plainSpoken_attributeGroup : (AttributeGroup.rule a).PlainSpoken := by
  unfold AttributeGroup.rule
  refine (plainSpoken_matchName (by decide)).then fun _ => ?_
  refine (plainSpoken_attr (by decide)).then fun name => ?_
  exact (plainSpoken_children plainSpoken_attributeDecl).then fun _ => trivial

theorem plainSpoken_attributeGroupRef : attributeGroupRef.PlainSpoken := by
  unfold attributeGroupRef
  exact (plainSpoken_matchName (by decide)).then fun _ => plainSpoken_attr (by decide)

/-! ## Complex types and elements -/

section Inner

variable (h : inner.PlainSpoken)

include h

theorem plainSpoken_sequenceOver : (Sequence.ruleOver inner).PlainSpoken := by
  unfold Sequence.ruleOver
  refine (plainSpoken_matchName (by decide)).then fun _ => ?_
  refine (plainSpoken_dropChildrenNamed "any").then fun _ => ?_
  refine plainSpoken_documentation.then fun doc => ?_
  refine plainSpoken_occurs.then fun occurs => ?_
  exact (plainSpoken_children h).then fun _ => trivial

theorem plainSpoken_choiceOver : (Choice.ruleOver inner).PlainSpoken := by
  unfold Choice.ruleOver
  refine (plainSpoken_matchName (by decide)).then fun _ => ?_
  exact (plainSpoken_children h).then fun _ => trivial

theorem plainSpoken_contentOver : (Content.ruleOver a inner).PlainSpoken := by
  have hsequence : (child (Sequence.ruleOver inner) >>= fun s =>
      Pure.pure (Content.sequence s)).PlainSpoken :=
    (plainSpoken_child (plainSpoken_sequenceOver h)).then fun _ => trivial
  have hchoice : (child (Choice.ruleOver inner) >>= fun c =>
      Pure.pure (Content.choice c)).PlainSpoken :=
    (plainSpoken_child (plainSpoken_choiceOver h)).then fun _ => trivial
  have hnone : (ensureDrained >>= fun _ => Pure.pure Content.none).PlainSpoken := trivial
  refine plainSpoken_arrangement ?_
  rw [List.forall_mem_cons, List.forall_mem_cons, List.forall_mem_singleton]
  exact ⟨hsequence, hchoice, hnone⟩

theorem plainSpoken_extension (name : Option String) (doc : String) :
    (extension a inner name doc).PlainSpoken := by
  unfold extension
  refine (plainSpoken_matchName (by decide)).then fun _ => ?_
  refine (plainSpoken_attr (by decide)).then fun base => ?_
  refine (plainSpoken_childrenOpt plainSpoken_attributeGroupRef).then fun groups => ?_
  refine (plainSpoken_childrenOpt plainSpoken_attributeDecl).then fun attributes => ?_
  exact (plainSpoken_contentOver h).then fun _ => trivial

theorem plainSpoken_complexContent (name : Option String) (doc : String) :
    (complexContent a inner name doc).PlainSpoken := by
  unfold complexContent
  refine (plainSpoken_matchName (by decide)).then fun _ => ?_
  exact plainSpoken_child (plainSpoken_extension h name doc)

theorem plainSpoken_ownContent (name : Option String) (doc : String) :
    (ownContent a inner name doc).PlainSpoken := by
  unfold ownContent
  refine (plainSpoken_childrenOpt plainSpoken_attributeGroupRef).then fun groups => ?_
  refine (plainSpoken_childrenOpt plainSpoken_attributeDecl).then fun attributes => ?_
  refine (plainSpoken_dropChildrenNamed "anyAttribute").then fun _ => ?_
  exact (plainSpoken_contentOver h).then fun _ => trivial

theorem plainSpoken_complexTypeOver : (ComplexType.ruleOver a inner).PlainSpoken := by
  unfold ComplexType.ruleOver
  refine (plainSpoken_matchName (by decide)).then fun _ => ?_
  refine (plainSpoken_dropAttr "abstract").then fun _ => ?_
  refine (plainSpoken_takeAttr "name").then fun name => ?_
  refine plainSpoken_documentation.then fun doc => plainSpoken_arrangement ?_
  rw [List.forall_mem_cons, List.forall_mem_singleton]
  exact ⟨plainSpoken_child (plainSpoken_complexContent h name doc),
    plainSpoken_ownContent h name doc⟩

theorem plainSpoken_elementType : (ElementType.ruleOver a inner).PlainSpoken := by
  have hnamed : (attr "type" >>= fun name => Pure.pure (ElementType.named name)).PlainSpoken :=
    (plainSpoken_attr (by decide)).then fun _ => trivial
  have hgiven : (child (ComplexType.ruleOver a inner) >>= fun t =>
      Pure.pure (ElementType.given t)).PlainSpoken :=
    (plainSpoken_child (plainSpoken_complexTypeOver h)).then fun _ => trivial
  refine plainSpoken_arrangement ?_
  rw [List.forall_mem_cons, List.forall_mem_singleton]
  exact ⟨hnamed, hgiven⟩

theorem plainSpoken_elementOver : (ElementDecl.ruleOver a inner).PlainSpoken := by
  unfold ElementDecl.ruleOver
  refine (plainSpoken_matchName (by decide)).then fun _ => ?_
  refine (plainSpoken_dropAttr "final").then fun _ => ?_
  refine (plainSpoken_dropAttr "fixed").then fun _ => ?_
  refine (plainSpoken_takeAttr "nillable").then fun nillable => ?_
  split
  · show OneLine _
    decide
  · refine (plainSpoken_elementType h).then fun type => ?_
    refine (plainSpoken_takeAttr "name").then fun name => ?_
    refine plainSpoken_documentation.then fun doc => ?_
    exact plainSpoken_occurs.then fun _ => trivial

end Inner

/-- An element with others inside it to any number of levels. -/
theorem plainSpoken_ruleWithin (levels : Nat) : (ElementDecl.ruleWithin a levels).PlainSpoken := by
  induction levels with
  | zero =>
    show OneLine _
    decide
  | succ levels ih => exact plainSpoken_elementOver ih

theorem plainSpoken_withLevels {rule : Rule ElementDecl → Rule α}
    (h : ∀ {inner}, inner.PlainSpoken → (rule inner).PlainSpoken) :
    (withLevels rule a).PlainSpoken := by
  unfold withLevels
  exact plainSpoken_element.then fun e => h (plainSpoken_ruleWithin _)

/-! ## Schemas -/

theorem plainSpoken_schemaItemOver (h : inner.PlainSpoken) :
    (SchemaItem.ruleOver a inner).PlainSpoken := by
  refine plainSpoken_arrangement ?_
  rw [List.forall_mem_cons, List.forall_mem_cons, List.forall_mem_cons, List.forall_mem_singleton]
  exact ⟨h.then fun _ => trivial, (plainSpoken_complexTypeOver h).then fun _ => trivial,
    plainSpoken_simpleType.then fun _ => trivial,
    plainSpoken_attributeGroup.then fun _ => trivial⟩

theorem plainSpoken_schemaOver (h : inner.PlainSpoken) :
    (Schema.ruleOver a inner).PlainSpoken := by
  unfold Schema.ruleOver
  refine (plainSpoken_matchName (by decide)).then fun _ => ?_
  refine (plainSpoken_dropAttrsFrom "xmlns").then fun _ => ?_
  refine (plainSpoken_dropAttr "elementFormDefault").then fun _ => ?_
  refine (plainSpoken_dropAttr "attributeFormDefault").then fun _ => ?_
  refine (plainSpoken_dropAttr "version").then fun _ => ?_
  refine (plainSpoken_takeAttr "targetNamespace").then fun targetNamespace => ?_
  refine (plainSpoken_dropChildrenNamed "import").then fun _ => ?_
  refine (plainSpoken_dropChildrenNamed "include").then fun _ => ?_
  refine plainSpoken_documentation.then fun doc => ?_
  refine (plainSpoken_dropChildrenNamed "annotation").then fun _ => ?_
  exact (plainSpoken_childrenOpt (plainSpoken_schemaItemOver h)).then fun _ => trivial

/-- Every rule of the grammar, in any arrangement. -/
theorem RuleName.plainSpoken_rule (a : Arrangement) :
    (name : RuleName) → (name.rule a).PlainSpoken
  | .schema => (plainSpoken_withLevels plainSpoken_schemaOver).then fun _ => trivial
  | .element => (plainSpoken_withLevels plainSpoken_elementOver).then fun _ => trivial
  | .complexType => (plainSpoken_withLevels plainSpoken_complexTypeOver).then fun _ => trivial
  | .simpleType => plainSpoken_simpleType.then fun _ => trivial
  | .attribute => plainSpoken_attributeDecl.then fun _ => trivial
  | .attributeGroup => plainSpoken_attributeGroup.then fun _ => trivial
  | .sequence => (plainSpoken_withLevels plainSpoken_sequenceOver).then fun _ => trivial
  | .choice => (plainSpoken_withLevels plainSpoken_choiceOver).then fun _ => trivial
  | .documentation => plainSpoken_documentation.then fun _ => trivial
  | .minOccurs => plainSpoken_minOccurs.then fun _ => trivial
  | .maxOccurs => plainSpoken_maxOccurs.then fun _ => trivial

end ElementGrammar.Xsd
