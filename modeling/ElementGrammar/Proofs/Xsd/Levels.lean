import ElementGrammar.Proofs.Rule.Depth
import ElementGrammar.Proofs.Xsd.Complex

/-!
# Levels

The rule for an element is built to a number of levels, one more than its tree is high.
Here that bound is shown to be out of reach, so the grammar holds itself as it is meant to.

* `ElementDecl.ruleWithin_agreeBelow`: to any two numbers of levels the rule runs alike on
  elements lower than both.
* `withLevels_run` is that a rule that is built to as many levels as its element can need
  runs like the same rule over `ElementDecl.rule`.
* `reads_rule_iff` and the lemmas below it say with this what the rules of the grammar
  read: an element is read where it is a written form over the elements that are read.
-/

namespace ElementGrammar.Xsd

open Rule (AgreeBelow Named)

variable {α : Type} {a : Arrangement} {h : Nat} {inner inner' : Rule ElementDecl}

/-! ## Rules over rules that agree -/

theorem agreeBelow_arrangement {point : ChoicePoint} {rules rules' : List (Rule α)}
    (hr : List.Forall₂ (AgreeBelow h) rules rules') :
    (a.oneOf point rules).AgreeBelow h (a.oneOf point rules') := by
  refine .oneOf ?_
  induction a point with
  | nil => exact .nil
  | cons i is ih =>
    rw [List.filterMap_cons, List.filterMap_cons]
    by_cases hi : i < rules.length
    · have hi' : i < rules'.length := hr.length_eq ▸ hi
      rw [List.getElem?_eq_getElem hi, List.getElem?_eq_getElem hi']
      exact .cons (hr.get hi hi') ih
    · have hi' : ¬i < rules'.length := hr.length_eq ▸ hi
      rw [List.getElem?_eq_none (Nat.le_of_not_lt hi), List.getElem?_eq_none (Nat.le_of_not_lt hi')]
      exact ih

section Over

variable (hinner : inner.AgreeBelow h inner')

include hinner

theorem agreeBelow_sequenceOver :
    (Sequence.ruleOver inner).AgreeBelow (h + 1) (Sequence.ruleOver inner') :=
  .bind (.refl _ _) fun _ => .bind (.refl _ _) fun _ => .bind (.refl _ _) fun _ =>
    .bind (.refl _ _) fun _ => .bind hinner.children fun _ => .refl _ _

theorem agreeBelow_choiceOver :
    (Choice.ruleOver inner).AgreeBelow (h + 1) (Choice.ruleOver inner') :=
  .bind (.refl _ _) fun _ => .bind hinner.children fun _ => .refl _ _

theorem agreeBelow_contentOver :
    (Content.ruleOver a inner).AgreeBelow (h + 2) (Content.ruleOver a inner') :=
  agreeBelow_arrangement <|
    .cons (.bind (agreeBelow_sequenceOver hinner).child fun _ => .refl _ _) <|
    .cons (.bind (agreeBelow_choiceOver hinner).child fun _ => .refl _ _) <|
    .cons (.refl _ _) .nil

theorem agreeBelow_extension (name : Option String) (doc : String) :
    (extension a inner name doc).AgreeBelow (h + 2) (extension a inner' name doc) :=
  .bind (.refl _ _) fun _ => .bind (.refl _ _) fun _ => .bind (.refl _ _) fun _ =>
    .bind (.refl _ _) fun _ => .bind (agreeBelow_contentOver hinner) fun _ => .refl _ _

theorem agreeBelow_complexContent (name : Option String) (doc : String) :
    (complexContent a inner name doc).AgreeBelow (h + 3) (complexContent a inner' name doc) :=
  .bind (.refl _ _) fun _ => (agreeBelow_extension hinner name doc).child

theorem agreeBelow_ownContent (name : Option String) (doc : String) :
    (ownContent a inner name doc).AgreeBelow (h + 2) (ownContent a inner' name doc) :=
  .bind (.refl _ _) fun _ => .bind (.refl _ _) fun _ => .bind (.refl _ _) fun _ =>
    .bind (agreeBelow_contentOver hinner) fun _ => .refl _ _

theorem agreeBelow_complexTypeOver :
    (ComplexType.ruleOver a inner).AgreeBelow (h + 2) (ComplexType.ruleOver a inner') := by
  refine .bind (.refl _ _) fun _ => .bind (.refl _ _) fun _ => .bind (.refl _ _) fun name =>
    .bind (.refl _ _) fun doc => agreeBelow_arrangement (.cons ?_ (.cons ?_ .nil))
  · exact (agreeBelow_complexContent hinner name doc).child.mono (by omega)
  · exact agreeBelow_ownContent hinner name doc

theorem agreeBelow_elementOver :
    (ElementDecl.ruleOver a inner).AgreeBelow (h + 3) (ElementDecl.ruleOver a inner') := by
  have htype : (ElementType.ruleOver a inner).AgreeBelow (h + 3) (ElementType.ruleOver a inner') :=
    agreeBelow_arrangement <| .cons (.refl _ _) <|
      .cons (.bind (agreeBelow_complexTypeOver hinner).child fun _ => .refl _ _) .nil
  exact .bind (.refl _ _) fun _ => .bind (.refl _ _) fun _ => .bind (.refl _ _) fun _ =>
    .bind (.refl _ _) fun _ => .ite (.refl _ _) (.bind htype fun _ => .refl _ _)

theorem agreeBelow_schemaItemOver :
    (SchemaItem.ruleOver a inner).AgreeBelow h (SchemaItem.ruleOver a inner') :=
  agreeBelow_arrangement <| .cons (.bind hinner fun _ => .refl _ _) <|
    .cons (.bind ((agreeBelow_complexTypeOver hinner).mono (by omega)) fun _ => .refl _ _) <|
    .cons (.refl _ _) <| .cons (.refl _ _) .nil

theorem agreeBelow_schemaOver :
    (Schema.ruleOver a inner).AgreeBelow (h + 1) (Schema.ruleOver a inner') :=
  .bind (.refl _ _) fun _ => .bind (.refl _ _) fun _ => .bind (.refl _ _) fun _ =>
    .bind (.refl _ _) fun _ => .bind (.refl _ _) fun _ => .bind (.refl _ _) fun _ =>
    .bind (.refl _ _) fun _ => .bind (.refl _ _) fun _ => .bind (.refl _ _) fun _ =>
    .bind (.refl _ _) fun _ => .bind (agreeBelow_schemaItemOver hinner).childrenOpt fun _ =>
      .refl _ _

end Over

/-! ## Numbers of levels -/

/-- To any two numbers of levels the rule for an element runs alike on elements lower than
both. -/
theorem ElementDecl.ruleWithin_agreeBelow (levels levels' : Nat) :
    (ElementDecl.ruleWithin a levels).AgreeBelow (min levels levels')
      (ElementDecl.ruleWithin a levels') := by
  induction levels generalizing levels' with
  | zero =>
    intro tracing s hs hlow
    rw [Nat.zero_min] at hlow
    exact absurd hlow (Nat.not_lt_zero _)
  | succ levels ih =>
    cases levels' with
    | zero =>
      intro tracing s hs hlow
      exact absurd hlow (Nat.not_lt_zero _)
    | succ levels' =>
      rw [Nat.succ_min_succ]
      exact (agreeBelow_elementOver (ih levels')).mono (by omega)

/-- A rule over the rule for an element, which looks at no element that is higher than its
own. -/
def Level (rule : Rule ElementDecl → Rule α) : Prop :=
  ∀ {h inner inner'}, AgreeBelow h inner inner' → AgreeBelow h (rule inner) (rule inner')

theorem level_elementOver : Level (ElementDecl.ruleOver a) :=
  fun hinner => (agreeBelow_elementOver hinner).mono (by omega)

theorem level_complexTypeOver : Level (ComplexType.ruleOver a) :=
  fun hinner => (agreeBelow_complexTypeOver hinner).mono (by omega)

theorem level_sequenceOver : Level Sequence.ruleOver :=
  fun hinner => (agreeBelow_sequenceOver hinner).mono (by omega)

theorem level_choiceOver : Level Choice.ruleOver :=
  fun hinner => (agreeBelow_choiceOver hinner).mono (by omega)

theorem level_schemaItemOver : Level (SchemaItem.ruleOver a) :=
  agreeBelow_schemaItemOver

theorem level_schemaOver : Level (Schema.ruleOver a) :=
  fun hinner => (agreeBelow_schemaOver hinner).mono (by omega)

theorem eval_withLevels (tracing : Tracing) (rule : Rule ElementDecl → Rule α) (s : Scope) :
    (withLevels rule a).eval tracing s =
      (rule (ElementDecl.ruleWithin a (s.element.height + 1))).eval tracing s :=
  rfl

/-- More levels than an element is high make no difference. -/
theorem withLevels_agreeBelow {rule : Rule ElementDecl → Rule α} (hrule : Level rule)
    (levels : Nat) :
    (withLevels rule a).AgreeBelow levels (rule (ElementDecl.ruleWithin a levels)) := by
  intro tracing s hs hlow
  rw [eval_withLevels]
  have hwithin := (ElementDecl.ruleWithin_agreeBelow (a := a) (s.element.height + 1) levels)
  rw [Nat.min_eq_left hlow] at hwithin
  exact hrule hwithin tracing s hs (Nat.lt_succ_self _)

/-- The rule for an element runs like one that is built to levels enough. -/
theorem rule_agreeBelow (levels : Nat) :
    (ElementDecl.rule a).AgreeBelow levels (ElementDecl.ruleWithin a levels) := by
  have hover := withLevels_agreeBelow (a := a) (level_elementOver (a := a)) levels
  have hwithin := ElementDecl.ruleWithin_agreeBelow (a := a) (levels + 1) levels
  rw [Nat.min_eq_right (Nat.le_succ levels)] at hwithin
  exact hover.trans hwithin

/-- A rule with levels runs like the same rule over the rule for an element. -/
theorem withLevels_run {rule : Rule ElementDecl → Rule α} (hrule : Level rule)
    (tracing : Tracing) (e : Element) :
    (withLevels rule a).run tracing e = (rule (ElementDecl.rule a)).run tracing e := by
  have hlow : e.height < e.height + 1 := Nat.lt_succ_self _
  have hagree := (withLevels_agreeBelow hrule (e.height + 1)).trans
    (hrule (rule_agreeBelow (a := a) (e.height + 1)).symm)
  exact hagree.run_eq tracing hlow

/-! ## The grammar looks at no error -/

section Blind

theorem blind_arrangement {point : ChoicePoint} {rules : List (Rule α)}
    (h : ∀ rule ∈ rules, rule.Blind) : (a.oneOf point rules).Blind := by
  refine (Rule.blind_oneOf _).mpr fun rule hmem => ?_
  obtain ⟨i, _, hi⟩ := List.mem_filterMap.mp hmem
  exact h rule (List.mem_of_getElem? hi)

@[simp] theorem blind_documentation : documentation.Blind := by
  simp [documentation, annotation]

@[simp] theorem blind_minOccurs : minOccurs.Blind := by
  simp [minOccurs]

@[simp] theorem blind_maxOccurs : maxOccurs.Blind := by
  refine ⟨trivial, fun value => ?_⟩
  cases value <;> simp

@[simp] theorem blind_occurs : Occurs.rule.Blind := by
  simp [Occurs.rule]

@[simp] theorem blind_simpleType : (SimpleType.rule a).Blind := by
  have hrestriction : (restriction a).Blind := by
    simp only [restriction, Rule.blind_bind, Rule.blind_matchName, Rule.blind_attr, true_and]
    refine fun _ base => blind_arrangement ?_
    simp [lengthFacets, enumerationFacets, facet, enumerationValue]
  simp only [SimpleType.rule, Rule.blind_bind, Rule.blind_matchName, Rule.blind_takeAttr,
    blind_documentation, Rule.blind_pure, implies_true, and_true, true_and]
  refine fun _ _ _ => blind_arrangement ?_
  simp [hrestriction, listType, unionType, aliasType]

@[simp] theorem blind_attributeDecl : (AttributeDecl.rule a).Blind := by
  have htype : (AttributeType.rule a).Blind := blind_arrangement (by simp)
  simp [AttributeDecl.rule, htype]

@[simp] theorem blind_attributeGroup : (AttributeGroup.rule a).Blind := by
  simp [AttributeGroup.rule]

variable (hinner : inner.Blind)

include hinner

theorem blind_sequenceOver : (Sequence.ruleOver inner).Blind := by
  simp [Sequence.ruleOver, hinner]

theorem blind_choiceOver : (Choice.ruleOver inner).Blind := by
  simp [Choice.ruleOver, hinner]

theorem blind_complexTypeOver : (ComplexType.ruleOver a inner).Blind := by
  have hcontent : (Content.ruleOver a inner).Blind :=
    blind_arrangement (by simp [blind_sequenceOver hinner, blind_choiceOver hinner])
  simp only [ComplexType.ruleOver, Rule.blind_bind, Rule.blind_matchName, Rule.blind_dropAttr,
    Rule.blind_takeAttr, blind_documentation, true_and]
  refine fun _ _ _ _ => blind_arrangement ?_
  simp [complexContent, extension, ownContent, attributeGroupRef, hcontent]

theorem blind_elementOver : (ElementDecl.ruleOver a inner).Blind := by
  have htype : (ElementType.ruleOver a inner).Blind :=
    blind_arrangement (by simp [blind_complexTypeOver hinner])
  simp [ElementDecl.ruleOver, htype]

theorem blind_schemaItemOver : (SchemaItem.ruleOver a inner).Blind :=
  blind_arrangement (by simp [hinner, blind_complexTypeOver hinner])

theorem blind_schemaOver : (Schema.ruleOver a inner).Blind := by
  simp [Schema.ruleOver, blind_schemaItemOver hinner]

end Blind

theorem blind_ruleWithin (levels : Nat) : (ElementDecl.ruleWithin a levels).Blind := by
  induction levels with
  | zero => exact Rule.blind_fail _
  | succ levels ih => exact blind_elementOver ih

theorem blind_withLevels {rule : Rule ElementDecl → Rule α}
    (h : ∀ {inner : Rule ElementDecl}, inner.Blind → (rule inner).Blind) :
    (withLevels rule a).Blind := by
  simp only [withLevels, Rule.blind_bind, Rule.blind_element, true_and]
  exact fun _ => h (blind_ruleWithin _)

@[simp] theorem blind_element : (ElementDecl.rule a).Blind :=
  blind_withLevels blind_elementOver

/-! ## What the rules read -/

instance named_withLevels {rule : Rule ElementDecl → Rule α} {name : String}
    [h : ∀ inner, Named (rule inner) name] : Named (withLevels rule a) name where
  name_eq hends := (h _).name_eq (Rule.ends_element.mp (Rule.ends_bind.mp hends))

instance : Named (ElementDecl.rule a) "element" := named_withLevels

/-- A rule with levels reads what the same rule over the rule for an element does. -/
theorem reads_withLevels {rule : Rule ElementDecl → Rule α} (hrule : Level rule)
    (hblind : ∀ {inner : Rule ElementDecl}, inner.Blind → (rule inner).Blind) :
    (withLevels rule a).Reads = (rule (ElementDecl.rule a)).Reads := by
  funext e v
  rw [← Rule.run_eq_ok_iff .silent (blind_withLevels hblind), withLevels_run hrule,
    Rule.run_eq_ok_iff .silent (hblind blind_element)]

section Reads

variable (ha : a.IsPermutation)

include ha

/-- An element is read where it is a written form over the elements that are read. -/
theorem reads_element :
    (ElementDecl.rule a).Reads = ElementDecl.WrittenOver (ElementDecl.rule a).Reads :=
  (reads_withLevels level_elementOver blind_elementOver).trans (reads_elementOver ha)

theorem reads_element_iff {e : Element} {d : ElementDecl} :
    (ElementDecl.rule a).Reads e d ↔ d.WrittenOver (ElementDecl.rule a).Reads e :=
  iff_of_eq (congrFun₂ (reads_element ha) e d)

theorem reads_complexType :
    (ComplexType.rule a).Reads = ComplexType.WrittenOver (ElementDecl.rule a).Reads :=
  (reads_withLevels level_complexTypeOver blind_complexTypeOver).trans (reads_complexTypeOver ha)

theorem reads_schema : (Schema.rule a).Reads = Schema.WrittenOver (ElementDecl.rule a).Reads :=
  (reads_withLevels level_schemaOver blind_schemaOver).trans (reads_schemaOver ha)

omit ha in
theorem reads_sequence :
    (Sequence.rule a).Reads = Sequence.WrittenOver (ElementDecl.rule a).Reads :=
  (reads_withLevels level_sequenceOver blind_sequenceOver).trans reads_sequenceOver

omit ha in
theorem reads_choice : (Choice.rule a).Reads = Choice.WrittenOver (ElementDecl.rule a).Reads :=
  (reads_withLevels level_choiceOver blind_choiceOver).trans reads_choiceOver

end Reads

end ElementGrammar.Xsd
