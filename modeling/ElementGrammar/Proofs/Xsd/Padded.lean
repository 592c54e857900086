import ElementGrammar.Proofs.Tree.Proper
import ElementGrammar.Proofs.Xsd.Levels
import ElementGrammar.Proofs.Xsd.PassedOver
import ElementGrammar.Xsd.Entry

/-!
# Schemas with items that are passed over

`Element.Padded` is that items that say nothing to the grammar are inserted at any depth,
`Element.PaddedRoot` that this is done with a whole schema, and `Schema.run_padded_iff` that
such a schema has the same value.

* Here is one lemma for each form that holds elements, complex types or sequences.  The form
  is the same before and after where the forms of the elements inside are, by assumption.
* `writtenOver_iff_of_padded` is the induction on the height that discharges the assumption.
* Among the children of a schema annotations count up to the first that gives the
  documentation: `Annotated` is that others are added after one that does.

Only the schema with the insertions has to be one that can be there: what is left of it
without them can be there too.
-/

namespace ElementGrammar

/-- The other element has more attributes and children, which say nothing.  The same may be
done with each of the children. -/
inductive Element.Padded : Element → Element → Prop where
  | intro {e e' : Element} {cs : List Element} (name : e'.name = e.name)
    (text : e'.text = e.text) (attrs : Inserted (IgnoredAttr e.name) e.attrs e'.attrs)
    (inside : List.Forall₂ Padded e.children cs)
    (children : Inserted (IgnoredChild e) cs e'.children) : Padded e e'

/-- An attribute that says nothing on a schema. -/
def IgnoredRootAttr (a : Attribute) : Prop :=
  "xmlns".toList.isPrefixOf a.name.toList = true ∨
    a.name ∈ ["elementFormDefault", "attributeFormDefault", "version"]

/-- Annotations are added after one that gives the documentation. -/
inductive Annotated : List Element → List Element → Prop where
  | unchanged (cs : List Element) : Annotated cs cs
  | added {c : Element} {doc : String} (before : List Element) {after after' : List Element}
    (h : Xsd.Annotation.Written c doc)
    (inserted : Inserted (·.name = "annotation") after after') :
    Annotated (before ++ c :: after) (before ++ c :: after')

/-- The other schema has more attributes that say nothing, and more imports, includes and
annotations, where no annotation is added before the one that gives the documentation.  The
children that it had correspond by `R`. -/
structure Element.RootPaddedOver (R : Element → Element → Prop) (e e' : Element) : Prop where
  name : e'.name = e.name
  text : e'.text = e.text
  attrs : Inserted IgnoredRootAttr e.attrs e'.attrs
  children : ∃ cs ds, List.Forall₂ R e.children cs ∧
    Inserted (·.name ∈ ["import", "include"]) cs ds ∧ Annotated ds e'.children

/-- Items that say nothing are inserted into a schema, at any depth. -/
def Element.PaddedRoot (e e' : Element) : Prop :=
  e.RootPaddedOver Padded e'

theorem Element.Padded.refl (e : Element) : e.Padded e :=
  .intro rfl rfl (.refl _) (List.forall₂_same.mpr fun c _ => refl c) (.refl _)
termination_by e.height
decreasing_by exact height_lt_of_mem (by assumption)

variable {R : Element → Element → Prop} {e e' : Element} {cs cs' : List Element}

namespace Xsd

/-! ## The attributes and the children of a schema -/

/-- Of the attributes that declare no namespace, three say nothing. -/
theorem inserted_withoutNamespaces {as bs : Attributes} (h : Inserted IgnoredRootAttr as bs) :
    Inserted (fun a => a.name ∈ ["elementFormDefault", "attributeFormDefault", "version"])
      (withoutNamespaces as) (withoutNamespaces bs) := by
  refine (h.filter _).mono ?_
  intro a ha
  obtain ⟨hignored, hkept⟩ := ha
  rcases hignored with hstart | hname
  · rw [hstart] at hkept
    exact absurd hkept Bool.false_ne_true
  · exact hname

theorem firstDocumented_cons_iff {c : Element} {doc : String} :
    FirstDocumented (c :: cs) doc ↔
      Annotation.Written c doc ∨
        (∀ doc, ¬ Annotation.Written c doc) ∧ FirstDocumented cs doc := by
  constructor
  · intro h
    cases h with
    | here h => exact Or.inl h
    | later hnot hrest => exact Or.inr ⟨hnot, hrest⟩
  · intro h
    rcases h with h | ⟨hnot, hrest⟩
    · exact .here h
    · exact .later hnot hrest

/-- What follows an annotation that is written gives no documentation. -/
theorem firstDocumented_append_cons_iff {c : Element} {doc : String}
    (hc : Annotation.Written c doc) (before after after' : List Element) (doc' : String) :
    FirstDocumented (before ++ c :: after) doc' ↔ FirstDocumented (before ++ c :: after') doc' := by
  induction before with
  | nil =>
    -- The search ends at `c`, so what is after it plays no part.
    have hnot : ¬ ∀ doc, ¬ Annotation.Written c doc := fun h => h doc hc
    simp only [List.nil_append, firstDocumented_cons_iff, hnot, false_and]
  | cons b before ih => simp only [List.cons_append, firstDocumented_cons_iff, ih]

/-- The children that declare something by one look at the name. -/
theorem declaringChildren_eq_filter (cs : List Element) :
    declaringChildren cs = cs.filter fun c => c.name ∉ ["import", "include", "annotation"] := by
  unfold declaringChildren others
  rw [List.filter_filter, List.filter_filter]
  refine List.filter_congr ?_
  intro c _
  simp [bne, Bool.and_comm, Bool.and_left_comm, Bool.beq_eq_decide_eq]

theorem declaringChildren_eq_of_imports {ds : List Element}
    (h : Inserted (·.name ∈ ["import", "include"]) cs ds) :
    declaringChildren ds = declaringChildren cs := by
  rw [declaringChildren_eq_filter, declaringChildren_eq_filter]
  refine h.filter_eq _ ?_
  intro d hd
  rcases List.mem_pair.mp hd with hd | hd <;> simp [hd]

end Xsd

namespace Annotated

open Xsd

/-- No annotation that is added gives the documentation. -/
theorem firstDocumented_iff (h : Annotated cs cs') {doc : String} :
    FirstDocumented (named "annotation" cs) doc ↔
      FirstDocumented (named "annotation" cs') doc := by
  cases h with
  | unchanged => exact Iff.rfl
  | added before h _ =>
    rw [named_append, named_append, named_cons, named_cons, if_pos h.shape.name,
      if_pos h.shape.name]
    exact firstDocumented_append_cons_iff h _ _ _ doc

theorem declaringChildren_eq (h : Annotated cs cs') :
    declaringChildren cs' = declaringChildren cs := by
  cases h with
  | unchanged => rfl
  | added before h inserted =>
    rw [declaringChildren_eq_filter, declaringChildren_eq_filter, List.filter_append,
      List.filter_append, List.filter_cons, List.filter_cons, inserted.filter_eq]
    intro d hd
    simp [hd]

theorem subset (h : Annotated cs cs') : cs ⊆ cs' := by
  cases h with
  | unchanged => exact List.Subset.refl _
  | added before h inserted =>
    exact ((inserted.sublist.cons_cons _).append_left before).subset

end Annotated

namespace Xsd

/-! ## Elements and complex types -/

section Corresponding

variable {α : Type} {Form Form' : Element → α → Prop} {vs : List α} {name : String}
  (hform : ∀ c c' v, R c c' → (Form c v ↔ Form' c' v))

include hform

theorem forall₂_padded_iff (hcs : List.Forall₂ R cs cs') :
    List.Forall₂ Form cs vs ↔ List.Forall₂ Form' cs' vs := by
  constructor
  · intro h
    exact forall₂_transfer hcs h fun c c' v hc => (hform c c' v hc).mp
  · intro h
    exact forall₂_transfer hcs.flip h fun c' c v hc => (hform c c' v hc).mpr

theorem listed_padded_iff (hcs : List.Forall₂ R (named name cs) (named name cs')) :
    Listed Form name cs vs ↔ Listed Form' name cs' vs := by
  have hforms : List.Forall₂ Form (named name cs) vs ↔ List.Forall₂ Form' (named name cs') vs :=
    forall₂_padded_iff hform hcs
  constructor
  · intro h
    exact ⟨hforms.mp h.forms, h.length⟩
  · intro h
    exact ⟨hforms.mpr h.forms, h.length⟩

end Corresponding

section Forms

variable (hR : ∀ c c', R c c' → c.PaddedOver R c')

include hR

theorem annotation_padded_iff (e e' : Element) (doc : String) (h : R e e') :
    Annotation.Written e doc ↔ Annotation.Written e' doc :=
  strict_form_iff hR (fun _ _ hc => hc.strict) h

theorem SimpleType.padded_iff (e e' : Element) (t : SimpleType) (h : R e e') :
    SimpleType.Written e t ↔ SimpleType.Written e' t :=
  strict_form_iff hR (fun _ _ hc => hc.strict) h

theorem AttributeDecl.padded_iff (e e' : Element) (d : AttributeDecl) (h : R e e') :
    AttributeDecl.Written e d ↔ AttributeDecl.Written e' d :=
  strict_form_iff hR (fun _ _ hc => hc.strict) h

theorem AttributeGroup.padded_iff (e e' : Element) (g : AttributeGroup) (h : R e e') :
    AttributeGroup.Written e g ↔ AttributeGroup.Written e' g :=
  strict_form_iff hR (fun _ _ hc => hc.strict) h

theorem documents_padded_iff (h : e.PaddedOver R e') (doc : String) :
    Documents e.children doc ↔ Documents e'.children doc := by
  refine exists_congr fun o => and_congr_left' ?_
  exact forall₂_padded_iff (annotation_padded_iff hR) (h.named_corresponds hR _ (by decide))

section Over

variable {Inner Inner' : Element → ElementDecl → Prop}
  (hinner : ∀ c c' d, R c c' → (Inner c d ↔ Inner' c' d))

include hinner

theorem Sequence.padded_iff (e e' : Element) (s : Sequence) (h : R e e') :
    s.WrittenOver Inner e ↔ s.WrittenOver Inner' e' := by
  have hpad := hR _ _ h
  have hshape : e.Shape "sequence" ["minOccurs", "maxOccurs"] ["any", "annotation", "element"] ↔
      e'.Shape "sequence" ["minOccurs", "maxOccurs"] ["any", "annotation", "element"] := by
    refine hpad.shape_iff hR ?_ ?_
    · intro a ha
      cases ha <;> contradiction
    · intro c hname hc
      cases hc with
      | sequence _ hc => simp [hc]
      | complexType hother => simp [hname] at hother
  have hdoc := documents_padded_iff hR hpad s.doc
  have helements : Listed Inner "element" e.children s.elements ↔
      Listed Inner' "element" e'.children s.elements :=
    listed_padded_iff hinner (hpad.named_corresponds hR _ (by decide))
  constructor
  · intro he
    exact ⟨hshape.mp he.shape, hpad.text.trans he.text, hdoc.mp he.doc,
      hpad.occurs_iff.mp he.occurs, helements.mp he.elements, he.nonempty⟩
  · intro he
    exact ⟨hshape.mpr he.shape, hpad.text.symm.trans he.text, hdoc.mpr he.doc,
      hpad.occurs_iff.mpr he.occurs, helements.mpr he.elements, he.nonempty⟩

theorem Choice.padded_iff (e e' : Element) (c : Choice) (h : R e e') :
    c.WrittenOver Inner e ↔ c.WrittenOver Inner' e' := by
  have hpad := hR _ _ h
  have hshape : e.Shape "choice" [] ["element"] ↔ e'.Shape "choice" [] ["element"] :=
    hpad.shape_iff_of_not_mem hR (by decide)
  have helements : Listed Inner "element" e.children c.elements ↔
      Listed Inner' "element" e'.children c.elements :=
    listed_padded_iff hinner (hpad.named_corresponds hR _ (by decide))
  constructor
  · intro he
    exact ⟨hshape.mp he.shape, hpad.text.trans he.text, helements.mp he.elements, he.nonempty⟩
  · intro he
    exact ⟨hshape.mpr he.shape, hpad.text.symm.trans he.text, helements.mpr he.elements,
      he.nonempty⟩

theorem ComplexType.members_padded_iff (t : ComplexType) (h : e.PaddedOver R e') :
    t.MembersOver Inner e.children ↔ t.MembersOver Inner' e'.children := by
  have hgroups : Listed (Leaf "attributeGroup" "ref") "attributeGroup" e.children
      t.attributeGroups ↔ Listed (Leaf "attributeGroup" "ref") "attributeGroup" e'.children
      t.attributeGroups := by
    refine listed_padded_iff ?_ (h.named_corresponds hR _ (by decide))
    exact fun _ _ _ hc => strict_form_iff hR (fun _ _ hleaf => hleaf.strict (by decide)) hc
  have hattributes : Listed AttributeDecl.Written "attribute" e.children t.attributes ↔
      Listed AttributeDecl.Written "attribute" e'.children t.attributes :=
    listed_padded_iff (AttributeDecl.padded_iff hR) (h.named_corresponds hR _ (by decide))
  have hsequence : List.Forall₂ (Sequence.WrittenOver Inner) (named "sequence" e.children)
      t.content.sequence?.toList ↔ List.Forall₂ (Sequence.WrittenOver Inner')
      (named "sequence" e'.children) t.content.sequence?.toList :=
    forall₂_padded_iff (Sequence.padded_iff hR hinner) (h.named_corresponds hR _ (by decide))
  have hchoice : List.Forall₂ (Choice.WrittenOver Inner) (named "choice" e.children)
      t.content.choice?.toList ↔ List.Forall₂ (Choice.WrittenOver Inner')
      (named "choice" e'.children) t.content.choice?.toList :=
    forall₂_padded_iff (Choice.padded_iff hR hinner) (h.named_corresponds hR _ (by decide))
  constructor
  · intro hmembers
    exact ⟨hgroups.mp hmembers.groups, hattributes.mp hmembers.attributes,
      hsequence.mp hmembers.content.sequence, hchoice.mp hmembers.content.choice⟩
  · intro hmembers
    exact ⟨hgroups.mpr hmembers.groups, hattributes.mpr hmembers.attributes,
      hsequence.mpr hmembers.content.sequence, hchoice.mpr hmembers.content.choice⟩

theorem extension_padded_iff (e e' : Element) (t : ComplexType) (h : R e e') :
    Extension.WrittenOver Inner e t ↔ Extension.WrittenOver Inner' e' t := by
  have hpad := hR _ _ h
  have hshape : e.Shape "extension" ["base"]
      ["attributeGroup", "attribute", "sequence", "choice"] ↔ e'.Shape "extension" ["base"]
      ["attributeGroup", "attribute", "sequence", "choice"] :=
    hpad.shape_iff_of_not_mem hR (by decide)
  have hbase : e'.attrs.value? "base" = e.attrs.value? "base" := hpad.value?_eq (by decide)
  have hmembers := ComplexType.members_padded_iff hR hinner t hpad
  constructor
  · intro he
    exact ⟨hshape.mp he.shape, hpad.text.trans he.text, hbase.trans he.base, he.extended,
      hmembers.mp he.members⟩
  · intro he
    exact ⟨hshape.mpr he.shape, hpad.text.symm.trans he.text, hbase.symm.trans he.base,
      he.extended, hmembers.mpr he.members⟩

theorem complexContent_padded_iff (e e' : Element) (t : ComplexType) (h : R e e') :
    ComplexContent.WrittenOver Inner e t ↔ ComplexContent.WrittenOver Inner' e' t := by
  have hpad := hR _ _ h
  have hshape : e.Shape "complexContent" [] ["extension"] ↔
      e'.Shape "complexContent" [] ["extension"] := hpad.shape_iff_of_not_mem hR (by decide)
  have hextension : List.Forall₂ (Extension.WrittenOver Inner) (named "extension" e.children) [t] ↔
      List.Forall₂ (Extension.WrittenOver Inner') (named "extension" e'.children) [t] :=
    forall₂_padded_iff (extension_padded_iff hR hinner) (hpad.named_corresponds hR _ (by decide))
  constructor
  · intro he
    exact ⟨hshape.mp he.shape, hpad.text.trans he.text, hextension.mp he.extension⟩
  · intro he
    exact ⟨hshape.mpr he.shape, hpad.text.symm.trans he.text, hextension.mpr he.extension⟩

/-- Where there is complex content nothing is passed over, and elsewhere wildcards for
attributes may stand among the members. -/
theorem ComplexType.body_padded_iff (t : ComplexType) (h : e.PaddedOver R e')
    (hname : e.name = "complexType") :
    t.BodyOver Inner e.children ↔ t.BodyOver Inner' e'.children := by
  have hcorresponds := h.named_corresponds hR "complexContent" (by decide)
  have hcontent : List.Forall₂ (ComplexContent.WrittenOver Inner)
      (named "complexContent" e.children) [t] ↔ List.Forall₂ (ComplexContent.WrittenOver Inner')
      (named "complexContent" e'.children) [t] :=
    forall₂_padded_iff (complexContent_padded_iff hR hinner) hcorresponds
  -- With complex content before, which is the same as after, no wildcard is new.
  have hextension (hsome : List.Forall₂ (ComplexContent.WrittenOver Inner)
      (named "complexContent" e.children) [t]) :
      NamesIn ["annotation", "complexContent"] e.children ↔
        NamesIn ["annotation", "complexContent"] e'.children := by
    refine h.namesIn_iff hR ?_
    intro c hc
    cases hc with
    | sequence hother => simp [hname] at hother
    | complexType _ hnone =>
      rw [hnone] at hsome
      cases hsome
  have hown : NamesIn
      ["annotation", "attributeGroup", "attribute", "anyAttribute", "sequence", "choice"]
      e.children ↔ NamesIn
      ["annotation", "attributeGroup", "attribute", "anyAttribute", "sequence", "choice"]
      e'.children := by
    refine h.namesIn_iff hR ?_
    intro c hc
    cases hc with
    | sequence hother => simp [hname] at hother
    | complexType _ _ hc => simp [hc]
  have hmembers := ComplexType.members_padded_iff hR hinner t h
  constructor
  · intro hbody
    cases hbody with
    | extension names content =>
      exact .extension ((hextension content).mp names) (hcontent.mp content)
    | own names base members => exact .own (hown.mp names) base (hmembers.mp members)
  · intro hbody
    cases hbody with
    | extension names content =>
      have hold := hcontent.mpr content
      exact .extension ((hextension hold).mpr names) hold
    | own names base members => exact .own (hown.mpr names) base (hmembers.mpr members)

theorem ComplexType.padded_iff (e e' : Element) (t : ComplexType) (h : R e e') :
    t.WrittenOver Inner e ↔ t.WrittenOver Inner' e' := by
  have hpad := hR _ _ h
  by_cases hname : e.name = "complexType"
  · have hattrs : e'.attrs.Among ["abstract", "name"] ↔ e.attrs.Among ["abstract", "name"] := by
      refine hpad.attrs.among_iff hpad.distinct ?_
      intro a ha
      cases ha with
      | element hother => simp [hname] at hother
      | notNillable hother => simp [hname] at hother
      | complexType _ ha => simp [ha]
    have hvalue : e'.attrs.value? "name" = e.attrs.value? "name" := hpad.value?_eq (by decide)
    have hdoc := documents_padded_iff hR hpad t.doc
    have hbody := ComplexType.body_padded_iff hR hinner t hpad hname
    constructor
    · intro he
      exact ⟨hpad.name.trans hname, hattrs.mpr he.attrs, hpad.text.trans he.text,
        hvalue.trans he.name, hdoc.mp he.doc, hbody.mp he.body⟩
    · intro he
      exact ⟨hname, hattrs.mp he.attrs, hpad.text.symm.trans he.text, hvalue.symm.trans he.name,
        hdoc.mpr he.doc, hbody.mpr he.body⟩
  · constructor
    · intro he
      exact absurd he.element hname
    · intro he
      exact absurd (hpad.name.symm.trans he.element) hname

theorem ElementDecl.padded_iff (d : ElementDecl) (hpad : e.PaddedOver R e') :
    d.WrittenOver Inner e ↔ d.WrittenOver Inner' e' := by
  have hshape : e.Shape "element"
      ["final", "fixed", "nillable", "type", "name", "minOccurs", "maxOccurs"]
      ["complexType", "annotation"] ↔ e'.Shape "element"
      ["final", "fixed", "nillable", "type", "name", "minOccurs", "maxOccurs"]
      ["complexType", "annotation"] := by
    refine hpad.shape_iff hR ?_ ?_
    · intro a ha
      cases ha with
      | element _ ha => rcases List.mem_pair.mp ha with ha | ha <;> simp [ha]
      | notNillable _ ha => simp [ha]
      | complexType hother => contradiction
    · intro c hname hc
      cases hc with
      | sequence hother => simp [hname] at hother
      | complexType hother => simp [hname] at hother
  have htypeName : e'.attrs.value? "type" = e.attrs.value? "type" := hpad.value?_eq (by decide)
  have hvalue : e'.attrs.value? "name" = e.attrs.value? "name" := hpad.value?_eq (by decide)
  have htype : List.Forall₂ (ComplexType.WrittenOver Inner) (named "complexType" e.children)
      d.type.given?.toList ↔ List.Forall₂ (ComplexType.WrittenOver Inner')
      (named "complexType" e'.children) d.type.given?.toList :=
    forall₂_padded_iff (ComplexType.padded_iff hR hinner) (hpad.named_corresponds hR _ (by decide))
  have hdoc := documents_padded_iff hR hpad d.doc
  constructor
  · intro he
    exact ⟨hshape.mp he.shape, hpad.text.trans he.text, hpad.nillable_iff.mp he.nillable,
      htypeName.trans he.typeName, htype.mp he.type, hvalue.trans he.name, hdoc.mp he.doc,
      hpad.occurs_iff.mp he.occurs⟩
  · intro he
    exact ⟨hshape.mpr he.shape, hpad.text.symm.trans he.text, hpad.nillable_iff.mpr he.nillable,
      htypeName.symm.trans he.typeName, htype.mpr he.type, hvalue.symm.trans he.name,
      hdoc.mpr he.doc, hpad.occurs_iff.mpr he.occurs⟩

/-! ## Schemas -/

theorem SchemaItem.padded_iff (e e' : Element) (item : SchemaItem) (h : R e e') :
    item.WrittenOver Inner e ↔ item.WrittenOver Inner' e' := by
  cases item with
  | element d => exact hinner e e' d h
  | complexType t => exact ComplexType.padded_iff hR hinner e e' t h
  | simpleType t => exact SimpleType.padded_iff hR e e' t h
  | attributeGroup g => exact AttributeGroup.padded_iff hR e e' g h

omit hinner in
theorem firstDocumented_padded_iff (hcs : List.Forall₂ R cs cs') (doc : String) :
    FirstDocumented cs doc ↔ FirstDocumented cs' doc := by
  induction hcs with
  | nil => exact Iff.rfl
  | cons hc _ ih =>
    simp only [firstDocumented_cons_iff, annotation_padded_iff hR _ _ _ hc, ih]

theorem Schema.padded_iff (s : Schema) (h : e.RootPaddedOver R e')
    (hdistinct : e'.attrs.Distinct) :
    s.WrittenOver Inner e ↔ s.WrittenOver Inner' e' := by
  obtain ⟨cs, ds, hinside, himports, hannotated⟩ := h.children
  have hattrs := inserted_withoutNamespaces h.attrs
  have hamong : (withoutNamespaces e'.attrs).Among
      ["elementFormDefault", "attributeFormDefault", "version", "targetNamespace"] ↔
      (withoutNamespaces e.attrs).Among
      ["elementFormDefault", "attributeFormDefault", "version", "targetNamespace"] := by
    refine hattrs.among_iff (hdistinct.filter _) ?_
    intro a ha
    exact List.mem_append_left ["targetNamespace"] ha
  have htarget : (withoutNamespaces e'.attrs).value? "targetNamespace" =
      (withoutNamespaces e.attrs).value? "targetNamespace" := by
    refine hattrs.value?_eq ?_
    intro a ha hname
    simp [hname] at ha
  have hdoc : FirstDocumented (named "annotation" e.children) s.doc ↔
      FirstDocumented (named "annotation" e'.children) s.doc := by
    have hsame : named "annotation" ds = named "annotation" cs := by
      refine himports.named_eq ?_
      intro d hd hname
      simp [hname] at hd
    rw [← hannotated.firstDocumented_iff, hsame]
    exact firstDocumented_padded_iff hR (forall₂_padded_filter hR (· == "annotation") hinside) s.doc
  have hitems : List.Forall₂ (SchemaItem.WrittenOver Inner) (declaringChildren e.children)
      s.items ↔ List.Forall₂ (SchemaItem.WrittenOver Inner') (declaringChildren e'.children)
      s.items := by
    rw [hannotated.declaringChildren_eq, declaringChildren_eq_of_imports himports]
    refine forall₂_padded_iff (SchemaItem.padded_iff hR hinner) ?_
    simp only [declaringChildren_eq_filter]
    exact forall₂_padded_filter hR (fun name => name ∉ ["import", "include", "annotation"]) hinside
  constructor
  · intro he
    exact ⟨h.name.trans he.element, hamong.mpr he.attrs, h.text.trans he.text,
      htarget.trans he.targetNamespace, hdoc.mp he.doc, hitems.mp he.items, he.length⟩
  · intro he
    exact ⟨h.name.symm.trans he.element, hamong.mp he.attrs, h.text.symm.trans he.text,
      htarget.symm.trans he.targetNamespace, hdoc.mpr he.doc, hitems.mpr he.items, he.length⟩

end Over

/-! ## Forms that hold themselves -/

omit hR in
/-- Children that correspond are lower than the element that held them. -/
theorem paddedOver_lower (h : e.PaddedOver R e') :
    e.PaddedOver (fun c c' => c.height < e.height ∧ R c c') e' := by
  obtain ⟨cs, hinside, hinserted⟩ := h.children
  have hlow : ∀ c ∈ e.children, c.height < e.height := fun _ hc => Element.height_lt_of_mem hc
  have hboth := (List.forall₂_and_left _ _).mpr ⟨hlow, hinside⟩
  exact ⟨h.name, h.text, h.attrs, h.distinct, cs, hboth, hinserted⟩

/-- Forms of elements that hold themselves are the same before and after. -/
theorem writtenOver_iff_of_padded {Inner : Element → ElementDecl → Prop}
    (hinner : ∀ e d, Inner e d ↔ d.WrittenOver Inner e) (e e' : Element) (d : ElementDecl)
    (h : R e e') : Inner e d ↔ Inner e' d := by
  induction hn : e.height using Nat.strongRecOn generalizing e e' d with
  | ind n ih =>
    subst hn
    rw [hinner e d, hinner e' d]
    -- The relation is kept to elements below `e`, for which the induction gives the forms.
    refine ElementDecl.padded_iff (R := fun c c' => c.height < e.height ∧ R c c') ?_ ?_ d
      (paddedOver_lower (hR _ _ h))
    · intro c c' hc
      obtain ⟨hlow, hcc'⟩ := hc
      have hpad := paddedOver_lower (hR c c' hcc')
      obtain ⟨cs, hinside, hinserted⟩ := hpad.children
      have hlower := hinside.imp fun b b' hb => And.intro (Nat.lt_trans hb.1 hlow) hb.2
      exact ⟨hpad.name, hpad.text, hpad.attrs, hpad.distinct, cs, hlower, hinserted⟩
    · intro c c' d' hc
      exact ih c.height hc.1 c c' d' hc.2 rfl

end Forms

end Xsd

/-! ## Schemas that are padded -/

/-- Corresponding elements of which the second ones have a property. -/
theorem forall₂_and_right {p : Element → Prop} (h : List.Forall₂ R cs cs')
    (hp : ∀ c ∈ cs', p c) : List.Forall₂ (fun c c' => R c c' ∧ p c') cs cs' := by
  have hboth := (List.forall₂_and_left _ _).mpr ⟨hp, h.flip⟩
  exact hboth.flip.imp fun _ _ hc => ⟨hc.2, hc.1⟩

/-- Where all of the padded element can be there, so can each child that it had. -/
theorem Element.Padded.over (h : e.Padded e') (he' : e'.Proper) :
    e.PaddedOver (fun c c' => c.Padded c' ∧ c'.Proper) e' := by
  obtain ⟨_, distinct, proper⟩ := Element.proper_iff.mp he'
  cases h with
  | @intro _ _ cs name text attrs inside children =>
    have hproper : ∀ c ∈ cs, c.Proper := fun c hc => proper c (children.sublist.subset hc)
    exact ⟨name, text, attrs, distinct, cs, forall₂_and_right inside hproper, children⟩

theorem Element.PaddedRoot.over (h : e.PaddedRoot e') (he' : e'.Proper) :
    e.RootPaddedOver (fun c c' => c.Padded c' ∧ c'.Proper) e' := by
  obtain ⟨name, text, attrs, cs, ds, hinside, himports, hannotated⟩ := h
  obtain ⟨_, _, proper⟩ := Element.proper_iff.mp he'
  have hproper : ∀ c ∈ cs, c.Proper := fun c hc =>
    proper c (hannotated.subset (himports.sublist.subset hc))
  exact ⟨name, text, attrs, cs, ds, forall₂_and_right hinside hproper, himports, hannotated⟩

namespace Xsd

/-- A schema has the same value, or none, where items are inserted at any depth that say
nothing to the grammar. -/
theorem Schema.run_padded_iff (tracing : Tracing) {e e' : Element} (h : e.PaddedRoot e')
    (he' : e'.Proper) (s : Schema) :
    ((Schema.rule .declared).run tracing e).outcome = .ok s ↔
      ((Schema.rule .declared).run tracing e').outcome = .ok s := by
  have hdeclared := Arrangement.declared_isPermutation
  have hblind : (Schema.rule .declared).Blind := blind_withLevels blind_schemaOver
  have hR : ∀ c c' : Element, c.Padded c' ∧ c'.Proper →
      c.PaddedOver (fun c c' => c.Padded c' ∧ c'.Proper) c' := fun _ _ hc => hc.1.over hc.2
  rw [Rule.run_eq_ok_iff tracing hblind, Rule.run_eq_ok_iff tracing hblind, reads_schema hdeclared]
  refine Schema.padded_iff hR ?_ s (h.over he') (Element.proper_iff.mp he').2.1
  exact writtenOver_iff_of_padded hR fun _ _ => reads_element_iff hdeclared

/-- A note with a text. -/
def shopNote : Element :=
  ⟨"annotation", [], [⟨"documentation", [], [], some "A shop"⟩], none⟩

/-- A schema of one element that holds a sequence of others. -/
def shop : Element :=
  ⟨"schema", [⟨"targetNamespace", "urn:shop"⟩],
    [shopNote,
      ⟨"element", [⟨"name", "order"⟩],
        [⟨"complexType", [],
          [⟨"sequence", [],
            [⟨"element", [⟨"name", "item"⟩, ⟨"type", "xs:string"⟩], [], none⟩], none⟩],
          none⟩], none⟩], none⟩

/-- The same schema with what is passed over at every level. -/
def shopPadded : Element :=
  ⟨"schema", [⟨"xmlns:xs", "urn:xs"⟩, ⟨"targetNamespace", "urn:shop"⟩, ⟨"version", "2"⟩],
    [⟨"import", [⟨"namespace", "urn:goods"⟩], [], none⟩, shopNote,
      ⟨"annotation", [], [⟨"appinfo", [], [], some "Not for readers"⟩], none⟩,
      ⟨"element", [⟨"nillable", "false"⟩, ⟨"name", "order"⟩, ⟨"final", "#all"⟩],
        [⟨"complexType", [⟨"abstract", "true"⟩],
          [⟨"sequence", [],
            [⟨"any", [⟨"namespace", "##other"⟩], [], none⟩,
              ⟨"element", [⟨"name", "item"⟩, ⟨"type", "xs:string"⟩, ⟨"fixed", "pen"⟩], [],
                none⟩], none⟩,
            ⟨"anyAttribute", [], [], none⟩], none⟩], none⟩], none⟩

theorem Schema.run_padded_iff_shop :
    shop.PaddedRoot shopPadded ∧ shopPadded.Proper ∧
      ((Schema.rule .declared).run .silent shopPadded).outcome =
        .ok ⟨some "urn:shop", "A shop",
          [.element ⟨some "order", "", .given ⟨none, "", none, [], [],
            .sequence ⟨"", ⟨1, some 1⟩,
              [⟨some "item", "", .named "xs:string", ⟨1, some 1⟩⟩]⟩⟩, ⟨1, some 1⟩⟩]⟩ := by
  have horder : Element.Padded shop.children[1] shopPadded.children[3] := by
    refine .intro rfl rfl (.insert (.notNillable rfl rfl)
      (.keep _ (.insert (.element rfl (by decide)) .nil))) (.cons ?_ .nil) (.keep _ .nil)
    refine .intro rfl rfl (.insert (.complexType rfl rfl) .nil) (.cons ?_ .nil)
      (.keep _ (.insert (.complexType rfl rfl rfl) .nil))
    refine .intro rfl rfl .nil (.cons ?_ .nil) (.insert (.sequence rfl rfl) (.keep _ .nil))
    exact .intro rfl rfl (.keep _ (.keep _ (.insert (.element rfl (by decide)) .nil))) .nil .nil
  have hnote : Annotation.Written shopNote "A shop" :=
    (iff_of_eq (congrFun₂ reads_annotation _ _)).mp rfl
  have hpadded : shop.PaddedRoot shopPadded := by
    refine ⟨rfl, rfl, .insert (Or.inl rfl) (.keep _ (.insert (Or.inr (by decide)) .nil)),
      [shopNote, shopPadded.children[3]],
      [shopPadded.children[0], shopNote, shopPadded.children[3]],
      .cons (.refl _) (.cons horder .nil), .insert (by decide) (.keep _ (.keep _ .nil)), ?_⟩
    exact .added [shopPadded.children[0]] hnote (.insert rfl (.keep _ .nil))
  have hproper : shopPadded.Proper := by decide
  exact ⟨hpadded, hproper, (Schema.run_padded_iff .silent hpadded hproper _).mp rfl⟩

end Xsd

end ElementGrammar
