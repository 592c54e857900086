import ElementGrammar.Proofs.Rule.Depth
import ElementGrammar.Proofs.Xsd.Written

/-!
# Elements that are written alike

A written form asks for attributes by key and for children by name.  So it is carried from
an element to another one that has the same attributes in any order, and under each name
children that correspond: `Element.AlikeOver`.

Here is one lemma for each form.  What corresponds is a relation `R` between elements all of
whose pairs are alike again, and the forms of the elements inside are carried over by
assumption.  `writtenOver_transfer` is the induction that discharges it: forms that hold
themselves are carried over by any such relation.
-/

namespace ElementGrammar

/-- Elements that differ in the order of attributes, in the order of children that have
different names, and in the children themselves, which correspond by `R`. -/
structure Element.AlikeOver (R : Element → Element → Prop) (e e' : Element) : Prop where
  name : e'.name = e.name
  text : e'.text = e.text
  attrs : e.attrs.Perm e'.attrs
  children : ∀ name, List.Forall₂ R (named name e.children) (named name e'.children)

/-- Schemas that differ in the order of attributes, in the places of children that declare
nothing, and in the other children and the annotations, which correspond by `R`. -/
structure Element.RootAlikeOver (R : Element → Element → Prop) (e e' : Element) : Prop where
  name : e'.name = e.name
  text : e'.text = e.text
  attrs : e.attrs.Perm e'.attrs
  annotations : List.Forall₂ R (named "annotation" e.children) (named "annotation" e'.children)
  items : List.Forall₂ R (Xsd.declaringChildren e.children) (Xsd.declaringChildren e'.children)

theorem Element.AlikeOver.flip {R : Element → Element → Prop} {e e' : Element}
    (h : e.AlikeOver R e') : e'.AlikeOver (fun c c' => R c' c) e where
  name := h.name.symm
  text := h.text.symm
  attrs := h.attrs.symm
  children name := (h.children name).flip

theorem Element.RootAlikeOver.flip {R : Element → Element → Prop} {e e' : Element}
    (h : e.RootAlikeOver R e') : e'.RootAlikeOver (fun c c' => R c' c) e where
  name := h.name.symm
  text := h.text.symm
  attrs := h.attrs.symm
  annotations := h.annotations.flip
  items := h.items.flip

theorem namesIn_iff_named_nil {names : List String} {cs : List Element} :
    NamesIn names cs ↔ ∀ name ∉ names, named name cs = [] := by
  refine ⟨fun h name hname => h.named_eq_nil hname, fun h c hc => ?_⟩
  by_contra hname
  have hmem : c ∈ named c.name cs := mem_named.mpr ⟨hc, rfl⟩
  rw [h _ hname] at hmem
  cases hmem

variable {R : Element → Element → Prop} {e e' : Element} {cs cs' : List Element}

theorem NamesIn.alike {names : List String}
    (hcs : ∀ name, List.Forall₂ R (named name cs) (named name cs')) (h : NamesIn names cs) :
    NamesIn names cs' := by
  refine namesIn_iff_named_nil.mpr fun name hname => ?_
  have hnone := h.named_eq_nil hname
  exact List.forall₂_nil_left_iff.mp (hnone ▸ hcs name)

theorem Element.Shape.alike {name : String} {keys names : List String} (h : e.AlikeOver R e')
    (he : e.Shape name keys names) : e'.Shape name keys names where
  name := h.name.trans he.name
  attrs := he.attrs.perm h.attrs
  children := he.children.alike h.children

/-- Distinct attributes have the same values in any order. -/
theorem Element.AlikeOver.value? (h : e.AlikeOver R e') (he : e.attrs.Distinct) (key : String) :
    e'.attrs.value? key = e.attrs.value? key :=
  (he.value?_perm h.attrs key).symm

theorem Element.AlikeOver.refl (e : Element) : e.AlikeOver Eq e where
  name := rfl
  text := rfl
  attrs := .refl _
  children _ := List.forall₂_eq_eq_eq ▸ rfl

namespace Xsd

variable {α : Type} {vs : List α} {Form Form' : Element → α → Prop} {name key : String}

theorem Leaf.alike {value : String} (h : e.AlikeOver R e') (he : Leaf name key e value) :
    Leaf name key e' value where
  shape := he.shape.alike h
  text := h.text.trans he.text
  value := (h.value? he.shape.attrs.distinct key).trans he.value

theorem Listed.alike (hcs : ∀ name, List.Forall₂ R (named name cs) (named name cs'))
    (hform : ∀ c c' v, R c c' → Form c v → Form' c' v) (h : Listed Form name cs vs) :
    Listed Form' name cs' vs where
  forms := forall₂_transfer (hcs name) h.forms hform
  length := h.length

theorem Occurs.Written.alike {o : Occurs} (h : e.AlikeOver R e') (he : e.attrs.Distinct)
    (ho : o.Written e.attrs) : o.Written e'.attrs where
  least := (h.value? he _).symm ▸ ho.least
  greatest := (h.value? he _).symm ▸ ho.greatest

section Forms

variable (hR : ∀ c c', R c c' → c.AlikeOver R c')

include hR

/-! ## Annotations, simple types and attributes -/

theorem Documentation.Written.alike {doc : String} (h : R e e')
    (he : Documentation.Written e doc) : Documentation.Written e' doc where
  shape := he.shape.alike (hR _ _ h)
  doc := (hR _ _ h).text.symm ▸ he.doc

theorem Annotation.Written.alike {doc : String} (h : R e e') (he : Annotation.Written e doc) :
    Annotation.Written e' doc where
  shape := he.shape.alike (hR _ _ h)
  text := (hR _ _ h).text.trans he.text
  documentation := forall₂_transfer ((hR _ _ h).children _) he.documentation fun _ _ _ hc hd =>
    Documentation.Written.alike hR hc hd

theorem Documents.alike {doc : String}
    (hcs : ∀ name, List.Forall₂ R (named name cs) (named name cs')) (h : Documents cs doc) :
    Documents cs' doc := by
  obtain ⟨o, hall, hdoc⟩ := h
  have hall' := forall₂_transfer (hcs _) hall fun _ _ _ hc ha => Annotation.Written.alike hR hc ha
  exact ⟨o, hall', hdoc⟩

theorem Facet.alike {n : Nat} (h : R e e') (he : Facet name e n) : Facet name e' n := by
  obtain ⟨value, hleaf, hn⟩ := he
  exact ⟨value, hleaf.alike (hR _ _ h), hn⟩

theorem SimpleKind.Written.alike {kind : SimpleKind} (h : R e e')
    (he : SimpleKind.Written e kind) : SimpleKind.Written e' kind := by
  have hlike := hR _ _ h
  cases he with
  | length shape text hbase hleast hgreatest bounded =>
    refine .length (shape.alike hlike) (hlike.text.trans text)
      ((hlike.value? shape.attrs.distinct _).trans hbase) ?_ ?_ bounded
    · exact forall₂_transfer (hlike.children _) hleast fun _ _ _ hc hf => Facet.alike hR hc hf
    · exact forall₂_transfer (hlike.children _) hgreatest fun _ _ _ hc hf => Facet.alike hR hc hf
  | enumeration shape text hbase hvalues nonempty =>
    refine .enumeration (shape.alike hlike) (hlike.text.trans text)
      ((hlike.value? shape.attrs.distinct _).trans hbase) ?_ nonempty
    exact hvalues.alike hlike.children fun _ _ _ hc hleaf => hleaf.alike (hR _ _ hc)
  | list leaf => exact .list (leaf.alike hlike)
  | union leaf => exact .union (leaf.alike hlike)
  | unrestricted leaf => exact .unrestricted (leaf.alike hlike)

theorem SimpleType.Written.alike {t : SimpleType} (h : R e e') (he : SimpleType.Written e t) :
    SimpleType.Written e' t where
  shape := he.shape.alike (hR _ _ h)
  text := (hR _ _ h).text.trans he.text
  name := ((hR _ _ h).value? he.shape.attrs.distinct _).trans he.name
  doc := he.doc.alike hR (hR _ _ h).children
  kind := forall₂_transfer ((hR _ _ h).children _) he.kind fun _ _ _ hc hk =>
    SimpleKind.Written.alike hR hc hk

theorem AttributeDecl.Written.alike {d : AttributeDecl} (h : R e e')
    (he : AttributeDecl.Written e d) : AttributeDecl.Written e' d where
  shape := he.shape.alike (hR _ _ h)
  text := (hR _ _ h).text.symm ▸ he.text
  typeName := ((hR _ _ h).value? he.shape.attrs.distinct _).trans he.typeName
  type := forall₂_transfer ((hR _ _ h).children _) he.type fun _ _ _ hc ht =>
    SimpleType.Written.alike hR hc ht
  name := ((hR _ _ h).value? he.shape.attrs.distinct _).trans he.name
  doc := he.doc.alike hR (hR _ _ h).children
  usage := ((hR _ _ h).value? he.shape.attrs.distinct _).trans he.usage
  default := ((hR _ _ h).value? he.shape.attrs.distinct _).trans he.default

theorem AttributeGroup.Written.alike {g : AttributeGroup} (h : R e e')
    (he : AttributeGroup.Written e g) : AttributeGroup.Written e' g where
  shape := he.shape.alike (hR _ _ h)
  text := (hR _ _ h).text.trans he.text
  name := ((hR _ _ h).value? he.shape.attrs.distinct _).trans he.name
  attributes := he.attributes.alike (hR _ _ h).children fun _ _ _ hc hd =>
    AttributeDecl.Written.alike hR hc hd
  nonempty := he.nonempty

/-! ## Elements and complex types -/

section Over

variable {Inner Inner' : Element → ElementDecl → Prop}
  (hinner : ∀ c c' d, R c c' → Inner c d → Inner' c' d)

include hinner

theorem Sequence.WrittenOver.alike {s : Sequence} (h : R e e') (he : s.WrittenOver Inner e) :
    s.WrittenOver Inner' e' where
  shape := he.shape.alike (hR _ _ h)
  text := (hR _ _ h).text.trans he.text
  doc := he.doc.alike hR (hR _ _ h).children
  occurs := he.occurs.alike (hR _ _ h) he.shape.attrs.distinct
  elements := he.elements.alike (hR _ _ h).children fun _ _ _ hc hd => hinner _ _ _ hc hd
  nonempty := he.nonempty

theorem Choice.WrittenOver.alike {c : Choice} (h : R e e') (he : c.WrittenOver Inner e) :
    c.WrittenOver Inner' e' where
  shape := he.shape.alike (hR _ _ h)
  text := (hR _ _ h).text.trans he.text
  elements := he.elements.alike (hR _ _ h).children fun _ _ _ hc hd => hinner _ _ _ hc hd
  nonempty := he.nonempty

theorem ComplexType.MembersOver.alike {t : ComplexType}
    (hcs : ∀ name, List.Forall₂ R (named name cs) (named name cs')) (h : t.MembersOver Inner cs) :
    t.MembersOver Inner' cs' where
  groups := h.groups.alike hcs fun _ _ _ hc hleaf => hleaf.alike (hR _ _ hc)
  attributes := h.attributes.alike hcs fun _ _ _ hc hd => AttributeDecl.Written.alike hR hc hd
  content :=
    ⟨forall₂_transfer (hcs _) h.content.sequence fun _ _ _ hc hs =>
        Sequence.WrittenOver.alike hR hinner hc hs,
      forall₂_transfer (hcs _) h.content.choice fun _ _ _ hc hs =>
        Choice.WrittenOver.alike hR hinner hc hs⟩

theorem Extension.WrittenOver.alike {t : ComplexType} (h : R e e')
    (he : Extension.WrittenOver Inner e t) : Extension.WrittenOver Inner' e' t where
  shape := he.shape.alike (hR _ _ h)
  text := (hR _ _ h).text.trans he.text
  base := ((hR _ _ h).value? he.shape.attrs.distinct _).trans he.base
  extended := he.extended
  members := he.members.alike hR hinner (hR _ _ h).children

theorem ComplexContent.WrittenOver.alike {t : ComplexType} (h : R e e')
    (he : ComplexContent.WrittenOver Inner e t) : ComplexContent.WrittenOver Inner' e' t where
  shape := he.shape.alike (hR _ _ h)
  text := (hR _ _ h).text.trans he.text
  extension := forall₂_transfer ((hR _ _ h).children _) he.extension fun _ _ _ hc ht =>
    Extension.WrittenOver.alike hR hinner hc ht

theorem ComplexType.BodyOver.alike {t : ComplexType}
    (hcs : ∀ name, List.Forall₂ R (named name cs) (named name cs')) (h : t.BodyOver Inner cs) :
    t.BodyOver Inner' cs' := by
  cases h with
  | extension names content =>
    exact .extension (names.alike hcs) <| forall₂_transfer (hcs _) content fun _ _ _ hc ht =>
      ComplexContent.WrittenOver.alike hR hinner hc ht
  | own names base members => exact .own (names.alike hcs) base (members.alike hR hinner hcs)

theorem ComplexType.WrittenOver.alike {t : ComplexType} (h : R e e')
    (he : t.WrittenOver Inner e) : t.WrittenOver Inner' e' where
  element := (hR _ _ h).name.trans he.element
  attrs := he.attrs.perm (hR _ _ h).attrs
  text := (hR _ _ h).text.trans he.text
  name := ((hR _ _ h).value? he.attrs.distinct _).trans he.name
  doc := he.doc.alike hR (hR _ _ h).children
  body := he.body.alike hR hinner (hR _ _ h).children

theorem ElementDecl.WrittenOver.alike {d : ElementDecl} (h : e.AlikeOver R e')
    (he : d.WrittenOver Inner e) : d.WrittenOver Inner' e' where
  shape := he.shape.alike h
  text := h.text.trans he.text
  nillable := (h.value? he.shape.attrs.distinct _).symm ▸ he.nillable
  typeName := (h.value? he.shape.attrs.distinct _).trans he.typeName
  type := forall₂_transfer (h.children _) he.type fun _ _ _ hc ht =>
    ComplexType.WrittenOver.alike hR hinner hc ht
  name := (h.value? he.shape.attrs.distinct _).trans he.name
  doc := he.doc.alike hR h.children
  occurs := he.occurs.alike h he.shape.attrs.distinct

theorem SchemaItem.WrittenOver.alike {item : SchemaItem} (h : R e e')
    (he : item.WrittenOver Inner e) : item.WrittenOver Inner' e' := by
  cases item with
  | element d => exact hinner _ _ _ h he
  | complexType t => exact ComplexType.WrittenOver.alike hR hinner h he
  | simpleType t => exact SimpleType.Written.alike hR h he
  | attributeGroup g => exact AttributeGroup.Written.alike hR h he

omit hinner in
/-- The first annotation that is written is carried over where the others are carried
back. -/
theorem FirstDocumented.alike {doc : String} (hcs : List.Forall₂ R cs cs')
    (hback : ∀ c c' doc, R c c' → Annotation.Written c' doc → Annotation.Written c doc)
    (h : FirstDocumented cs doc) : FirstDocumented cs' doc := by
  induction hcs with
  | nil => exact h
  | cons hc _ ih =>
    cases h with
    | here h => exact .here (h.alike hR hc)
    | later hnot hrest => exact .later (fun doc h => hnot doc (hback _ _ doc hc h)) (ih hrest)

theorem Schema.WrittenOver.alike {s : Schema} (h : e.RootAlikeOver R e')
    (hback : ∀ c c' doc, R c c' → Annotation.Written c' doc → Annotation.Written c doc)
    (he : s.WrittenOver Inner e) : s.WrittenOver Inner' e' where
  element := h.name.trans he.element
  attrs := he.attrs.perm (h.attrs.filter _)
  text := h.text.trans he.text
  targetNamespace :=
    (he.attrs.distinct.value?_perm (h.attrs.filter _) _).symm.trans he.targetNamespace
  doc := he.doc.alike hR h.annotations hback
  items := forall₂_transfer h.items he.items fun _ _ _ hc hitem =>
    SchemaItem.WrittenOver.alike hR hinner hc hitem
  length := he.length

end Over

/-! ## Forms that hold themselves -/

omit hR in
/-- Alike elements have lower elements inside that are alike. -/
theorem AlikeOver.lower (h : e.AlikeOver R e') :
    e.AlikeOver (fun c c' => c.height < e.height ∧ R c c') e' where
  name := h.name
  text := h.text
  attrs := h.attrs
  children name := (List.forall₂_and_left _ _).mpr
    ⟨fun _ hc => Element.height_lt_of_mem (mem_named.mp hc).1, h.children name⟩

/-- Forms of elements that hold themselves are carried over, by any relation all of whose pairs
are alike again, to whatever follows from a form over itself. -/
theorem writtenOver_transfer {Inner Inner' : Element → ElementDecl → Prop}
    (hinner : ∀ e d, Inner e d → d.WrittenOver Inner e)
    (hinner' : ∀ e d, d.WrittenOver Inner' e → Inner' e d) {d : ElementDecl} (h : R e e')
    (he : Inner e d) : Inner' e' d := by
  induction hn : e.height using Nat.strongRecOn generalizing e e' d with
  | ind n ih =>
    subst hn
    refine hinner' e' d ?_
    refine ElementDecl.WrittenOver.alike (R := fun c c' => c.height < e.height ∧ R c c') ?_ ?_
      (AlikeOver.lower (hR _ _ h)) (hinner e d he)
    · rintro c c' ⟨hlow, hc⟩
      have hlower := AlikeOver.lower (hR _ _ hc)
      exact ⟨hlower.name, hlower.text, hlower.attrs, fun name => (hlower.children name).imp
        fun _ _ h => ⟨Nat.lt_trans h.1 hlow, h.2⟩⟩
    · rintro c c' d' ⟨hlow, hc⟩ hd
      exact ih _ hlow hc hd rfl

end Forms

end Xsd

end ElementGrammar
