import ElementGrammar.Proofs.Text.Blank
import ElementGrammar.Proofs.Tree.Proper
import ElementGrammar.Proofs.Xsd.Written

/-!
# Declarations written as elements

`Schema.form` writes a schema as an element, and so do the functions before it for all that
a schema holds.  They use one way out of several: there is an annotation where the
documentation is not empty, both numbers of occurrences are written out, and a type that
extends another has its members inside an extension.

* The children of a form have one name each (`namesIn_map`, `namesIn_members`), so those of
  a name are found by the part of the form that they are in.
* Elements hold elements only by their types; `ElementDecl.inside_induction` is induction on
  the elements right inside.
* Forms can be built (`Schema.form_proper`), whatever the declaration is.
-/

namespace ElementGrammar.Xsd

/-! ## Parts of forms -/

/-- An element with attributes under some keys, and without a text. -/
def formOf (name : String) (ps : List (String × Option String)) (cs : List Element) : Element :=
  ⟨name, .given ps, cs, none⟩

def leafOf (name key value : String) : Element :=
  formOf name [(key, some value)] []

def annotationOf (doc : String) : Element :=
  formOf "annotation" [] [⟨"documentation", [], [], some doc⟩]

/-- Children that give a documentation: none where it is empty, or else an annotation. -/
def documentedBy (doc : String) : List Element :=
  if doc = "" then [] else [annotationOf doc]

def Occurs.leastText (o : Occurs) : String :=
  o.least.repr

def Occurs.greatestText (o : Occurs) : String :=
  o.greatest.elim "unbounded" Nat.repr

def extensionOf (base : String) (members : List Element) : Element :=
  formOf "extension" [("base", some base)] members

/-- Children with these members, which extend a base where there is one. -/
def extending (base : Option String) (members : List Element) : List Element :=
  match base with
  | none => members
  | some base => [formOf "complexContent" [] [extensionOf base members]]

/-! ## Forms -/

def SimpleKind.form : SimpleKind → Element
  | .length base least greatest =>
    formOf "restriction" [("base", some base)]
      (least.toList.map (leafOf "minLength" "value" ·.repr) ++
        greatest.toList.map (leafOf "maxLength" "value" ·.repr))
  | .enumeration base values =>
    formOf "restriction" [("base", some base)] (values.map (leafOf "enumeration" "value"))
  | .list itemType => leafOf "list" "itemType" itemType
  | .union memberTypes => leafOf "union" "memberTypes" (Text.joined memberTypes)
  | .alias base => leafOf "restriction" "base" base

def SimpleType.form (t : SimpleType) : Element :=
  formOf "simpleType" [("name", t.name)] (documentedBy t.doc ++ [t.kind.form])

def AttributeDecl.form (d : AttributeDecl) : Element :=
  formOf "attribute"
    [("type", d.type.name?), ("name", some d.name), ("use", d.usage), ("default", d.default)]
    (documentedBy d.doc ++ d.type.given?.toList.map SimpleType.form)

def AttributeGroup.form (g : AttributeGroup) : Element :=
  formOf "attributeGroup" [("name", some g.name)] (g.attributes.map AttributeDecl.form)

mutual

def ElementDecl.form : ElementDecl → Element
  | ⟨name, doc, type, occurs⟩ =>
    formOf "element"
      [("final", none), ("fixed", none), ("nillable", none), ("type", type.name?),
        ("name", name), ("minOccurs", some occurs.leastText),
        ("maxOccurs", some occurs.greatestText)]
      (documentedBy doc ++ type.forms)

def ElementType.forms : ElementType → List Element
  | .named _ => []
  | .given t => [t.form]

def ComplexType.form : ComplexType → Element
  | ⟨name, doc, base, groups, attributes, content⟩ =>
    formOf "complexType" [("abstract", none), ("name", name)]
      (documentedBy doc ++ extending base
        (groups.map (leafOf "attributeGroup" "ref") ++
          (attributes.map AttributeDecl.form ++ content.forms)))

def Content.forms : Content → List Element
  | .sequence s => [s.form]
  | .choice c => [c.form]
  | .none => []

def Sequence.form : Sequence → Element
  | ⟨doc, occurs, elements⟩ =>
    formOf "sequence"
      [("minOccurs", some occurs.leastText), ("maxOccurs", some occurs.greatestText)]
      (documentedBy doc ++ elementForms elements)

def Choice.form : Choice → Element
  | ⟨elements⟩ => formOf "choice" [] (elementForms elements)

def elementForms : List ElementDecl → List Element
  | [] => []
  | d :: ds => d.form :: elementForms ds

end

def SchemaItem.form : SchemaItem → Element
  | .element d => d.form
  | .complexType t => t.form
  | .simpleType t => t.form
  | .attributeGroup g => g.form

def Schema.form (s : Schema) : Element :=
  formOf "schema"
    [("elementFormDefault", none), ("attributeFormDefault", none), ("version", none),
      ("targetNamespace", s.targetNamespace)]
    (documentedBy s.doc ++ s.items.map SchemaItem.form)

theorem elementForms_eq_map (ds : List ElementDecl) :
    elementForms ds = ds.map ElementDecl.form := by
  induction ds with
  | nil => rfl
  | cons d ds ih => rw [elementForms, ih, List.map_cons]

theorem ElementType.forms_eq (t : ElementType) :
    t.forms = t.given?.toList.map ComplexType.form := by
  cases t <;> rfl

/-- The children of a complex type but for its documentation. -/
def ComplexType.members (t : ComplexType) : List Element :=
  t.attributeGroups.map (leafOf "attributeGroup" "ref") ++
    (t.attributes.map AttributeDecl.form ++ t.content.forms)

theorem Sequence.form_eq (s : Sequence) :
    s.form = formOf "sequence"
      [("minOccurs", some s.occurs.leastText), ("maxOccurs", some s.occurs.greatestText)]
      (documentedBy s.doc ++ s.elements.map ElementDecl.form) := by
  rw [← elementForms_eq_map]
  cases s
  rfl

theorem Choice.form_eq (c : Choice) :
    c.form = formOf "choice" [] (c.elements.map ElementDecl.form) := by
  rw [← elementForms_eq_map]
  cases c
  rfl

theorem ComplexType.form_eq (t : ComplexType) :
    t.form = formOf "complexType" [("abstract", none), ("name", t.name)]
      (documentedBy t.doc ++ extending t.base t.members) := by
  cases t
  rfl

theorem ElementDecl.form_eq (d : ElementDecl) :
    d.form = formOf "element"
      [("final", none), ("fixed", none), ("nillable", none), ("type", d.type.name?),
        ("name", d.name), ("minOccurs", some d.occurs.leastText),
        ("maxOccurs", some d.occurs.greatestText)]
      (documentedBy d.doc ++ d.type.given?.toList.map ComplexType.form) := by
  rw [← ElementType.forms_eq]
  cases d
  rfl

/-! ## Names and attributes of forms -/

variable {α : Type} {name other doc : String} {keys names : List String}
  {ps : List (String × Option String)} {cs : List Element}

@[simp] theorem formOf_attrs (name : String) (ps : List (String × Option String))
    (cs : List Element) : (formOf name ps cs).attrs = .given ps :=
  rfl

theorem formOf_shape (hkeys : ps.map (·.1) = keys) (hdistinct : keys.Nodup)
    (hnames : NamesIn names cs) : (formOf name ps cs).Shape name keys names :=
  ⟨rfl, Attributes.among_given hkeys hdistinct, hnames⟩

@[simp] theorem leafOf_name (name key value : String) : (leafOf name key value).name = name :=
  rfl

@[simp] theorem SimpleKind.form_name (kind : SimpleKind) : kind.form.name = kind.element := by
  cases kind <;> rfl

@[simp] theorem SimpleType.form_name (t : SimpleType) : t.form.name = "simpleType" :=
  rfl

@[simp] theorem AttributeDecl.form_name (d : AttributeDecl) : d.form.name = "attribute" :=
  rfl

@[simp] theorem ElementDecl.form_name (d : ElementDecl) : d.form.name = "element" := by
  cases d
  rfl

@[simp] theorem ComplexType.form_name (t : ComplexType) : t.form.name = "complexType" := by
  cases t
  rfl

@[simp] theorem Sequence.form_name (s : Sequence) : s.form.name = "sequence" := by
  rw [Sequence.form_eq]
  rfl

@[simp] theorem Choice.form_name (c : Choice) : c.form.name = "choice" := by
  rw [Choice.form_eq]
  rfl

theorem namesIn_map {write : α → Element} (h : ∀ v, (write v).name = name) (vs : List α) :
    NamesIn [name] (vs.map write) := by
  intro c hc
  obtain ⟨v, _, rfl⟩ := List.mem_map.mp hc
  exact List.mem_singleton.mpr (h v)

theorem named_map {write : α → Element} (h : ∀ v, (write v).name = name) (other : String)
    (vs : List α) :
    named other (vs.map write) = if other = name then vs.map write else [] :=
  (namesIn_map h vs).named_eq other

theorem namesIn_documentedBy (doc : String) : NamesIn ["annotation"] (documentedBy doc) := by
  intro c hc
  unfold documentedBy at hc
  split at hc
  · cases hc
  · rw [List.mem_singleton.mp hc]
    exact List.mem_singleton.mpr rfl

/-- Children that may have annotations beside them may be documented. -/
theorem namesIn_documented (h : NamesIn names cs) (hmem : "annotation" ∈ names) :
    NamesIn names (documentedBy doc ++ cs) :=
  namesIn_append_iff.mpr
    ⟨(namesIn_documentedBy doc).mono (List.cons_subset.mpr ⟨hmem, List.nil_subset _⟩), h⟩

theorem named_documentedBy_append (h : other ≠ "annotation") :
    named other (documentedBy doc ++ cs) = named other cs := by
  rw [named_append, (namesIn_documentedBy doc).named_eq, if_neg h, List.nil_append]

theorem namesIn_contentForms (c : Content) : NamesIn ["sequence", "choice"] c.forms := by
  cases c <;> simp [Content.forms, NamesIn]

theorem namesIn_members (t : ComplexType) :
    NamesIn ["attributeGroup", "attribute", "sequence", "choice"] t.members :=
  namesIn_append_iff.mpr
    ⟨(namesIn_map (leafOf_name "attributeGroup" "ref") _).mono (by decide),
      namesIn_append_iff.mpr
        ⟨(namesIn_map AttributeDecl.form_name _).mono (by decide),
          (namesIn_contentForms t.content).mono (by decide)⟩⟩

/-! Members of a name are found in the part of the form that writes them. -/

theorem named_attributeGroup_members (t : ComplexType) :
    named "attributeGroup" t.members = t.attributeGroups.map (leafOf "attributeGroup" "ref") := by
  have hcontent := namesIn_contentForms t.content
  simp +decide only [ComplexType.members, named_append,
    named_map (leafOf_name "attributeGroup" "ref"), named_map AttributeDecl.form_name,
    hcontent.named_eq_nil, if_true, if_false, List.append_nil]

theorem named_attribute_members (t : ComplexType) :
    named "attribute" t.members = t.attributes.map AttributeDecl.form := by
  have hcontent := namesIn_contentForms t.content
  simp +decide only [ComplexType.members, named_append,
    named_map (leafOf_name "attributeGroup" "ref"), named_map AttributeDecl.form_name,
    hcontent.named_eq_nil, if_true, if_false, List.append_nil, List.nil_append]

theorem named_content_members (t : ComplexType) (h : other ∉ ["attributeGroup", "attribute"]) :
    named other t.members = named other t.content.forms := by
  have hgroup : other ≠ "attributeGroup" := fun he => h (by simp [he])
  have hattribute : other ≠ "attribute" := fun he => h (by simp [he])
  simp only [ComplexType.members, named_append, named_map (leafOf_name "attributeGroup" "ref"),
    named_map AttributeDecl.form_name, if_neg hgroup, if_neg hattribute, List.nil_append]

theorem namesIn_extending (t : ComplexType) :
    NamesIn ["complexContent", "attributeGroup", "attribute", "sequence", "choice"]
      (extending t.base t.members) := by
  cases t.base with
  | none => exact (namesIn_members t).mono (by decide)
  | some base => exact List.forall_mem_singleton.mpr List.mem_cons_self

theorem namesIn_itemForms (items : List SchemaItem) :
    NamesIn ["element", "complexType", "simpleType", "attributeGroup"]
      (items.map SchemaItem.form) := by
  refine List.forall_mem_map.mpr fun item _ => ?_
  cases item <;> simp [SchemaItem.form, AttributeGroup.form, formOf]

/-! ## Elements inside -/

/-- The elements right inside a content. -/
def Content.inside : Content → List ElementDecl
  | .sequence s => s.elements
  | .choice c => c.elements
  | .none => []

/-- The elements right inside a type. -/
def ElementType.inside : ElementType → List ElementDecl
  | .named _ => []
  | .given t => t.content.inside

theorem ElementDecl.sizeOf_lt_of_mem_inside {c d : ElementDecl} (h : c ∈ d.type.inside) :
    sizeOf c < sizeOf d := by
  obtain ⟨name, doc, type, occurs⟩ := d
  cases type with
  | named _ => cases h
  | given t =>
    obtain ⟨name, doc, base, groups, attributes, content⟩ := t
    cases content with
    | sequence s =>
      obtain ⟨doc, occurs, elements⟩ := s
      have := List.sizeOf_lt_of_mem (show c ∈ elements from h)
      simp
      omega
    | choice c =>
      obtain ⟨elements⟩ := c
      have := List.sizeOf_lt_of_mem (show _ ∈ elements from h)
      simp
      omega
    | none => cases h

/-- What holds of an element where it holds of those right inside holds of all elements. -/
theorem ElementDecl.inside_induction {P : ElementDecl → Prop}
    (h : ∀ d : ElementDecl, (∀ c ∈ d.type.inside, P c) → P d) (d : ElementDecl) : P d :=
  h d fun c _ => ElementDecl.inside_induction h c
termination_by sizeOf d
decreasing_by exact ElementDecl.sizeOf_lt_of_mem_inside ‹_›

/-! ## Forms can be built -/

theorem formOf_proper (hname : name.isEmpty = false) (hdistinct : (ps.map (·.1)).Nodup)
    (hcs : ∀ c ∈ cs, c.Proper) : (formOf name ps cs).Proper :=
  Element.proper_of_children hname (Attributes.among_given rfl hdistinct).distinct hcs

theorem leafOf_proper {key value : String} (hname : name.isEmpty = false) :
    (leafOf name key value).Proper :=
  formOf_proper hname (List.nodup_singleton key) fun _ hc => absurd hc List.not_mem_nil

theorem annotationOf_proper (doc : String) : (annotationOf doc).Proper := by
  refine formOf_proper (by decide) List.nodup_nil fun c hc => ?_
  rw [List.mem_singleton.mp hc]
  exact Element.proper_of_text (by decide) Attributes.distinct_nil

theorem proper_documented (h : ∀ c ∈ cs, c.Proper) : ∀ c ∈ documentedBy doc ++ cs, c.Proper := by
  refine List.forall_mem_append.mpr ⟨?_, h⟩
  unfold documentedBy
  split
  · exact fun _ hc => absurd hc List.not_mem_nil
  · exact List.forall_mem_singleton.mpr (annotationOf_proper doc)

theorem proper_of_mem_map {write : α → Element} {vs : List α} (h : ∀ v ∈ vs, (write v).Proper) :
    ∀ c ∈ vs.map write, c.Proper :=
  List.forall_mem_map.mpr h

theorem SimpleKind.form_proper (kind : SimpleKind) : kind.form.Proper := by
  cases kind with
  | length base least greatest =>
    refine formOf_proper (by decide) (List.nodup_singleton _) (List.forall_mem_append.mpr ⟨?_, ?_⟩)
    · exact proper_of_mem_map fun _ _ => leafOf_proper (by decide)
    · exact proper_of_mem_map fun _ _ => leafOf_proper (by decide)
  | enumeration base values =>
    exact formOf_proper (by decide) (List.nodup_singleton _)
      (proper_of_mem_map fun _ _ => leafOf_proper (by decide))
  | list itemType => exact leafOf_proper (by decide)
  | union memberTypes => exact leafOf_proper (by decide)
  | «alias» base => exact leafOf_proper (by decide)

theorem SimpleType.form_proper (t : SimpleType) : t.form.Proper :=
  formOf_proper (by decide) (List.nodup_singleton _)
    (proper_documented (List.forall_mem_singleton.mpr t.kind.form_proper))

theorem AttributeDecl.form_proper (d : AttributeDecl) : d.form.Proper :=
  formOf_proper (by decide) (by simp)
    (proper_documented (proper_of_mem_map fun t _ => t.form_proper))

theorem AttributeGroup.form_proper (g : AttributeGroup) : g.form.Proper :=
  formOf_proper (by decide) (List.nodup_singleton _) (proper_of_mem_map fun d _ => d.form_proper)

theorem Content.forms_proper {c : Content} (h : ∀ d ∈ c.inside, d.form.Proper) :
    ∀ e ∈ c.forms, e.Proper := by
  cases c with
  | sequence s =>
    refine List.forall_mem_singleton.mpr ?_
    rw [Sequence.form_eq]
    exact formOf_proper (by decide) (by simp) (proper_documented (proper_of_mem_map h))
  | choice c =>
    refine List.forall_mem_singleton.mpr ?_
    rw [Choice.form_eq]
    exact formOf_proper (by decide) List.nodup_nil (proper_of_mem_map h)
  | none => exact fun _ he => absurd he List.not_mem_nil

theorem ComplexType.form_proper {t : ComplexType} (h : ∀ d ∈ t.content.inside, d.form.Proper) :
    t.form.Proper := by
  have hmembers : ∀ e ∈ t.members, e.Proper :=
    List.forall_mem_append.mpr ⟨proper_of_mem_map fun _ _ => leafOf_proper (by decide),
      List.forall_mem_append.mpr
        ⟨proper_of_mem_map fun d _ => d.form_proper, Content.forms_proper h⟩⟩
  rw [ComplexType.form_eq]
  refine formOf_proper (by decide) (by simp) (proper_documented ?_)
  cases t.base with
  | none => exact hmembers
  | some base =>
    refine List.forall_mem_singleton.mpr (formOf_proper (by decide) List.nodup_nil ?_)
    exact List.forall_mem_singleton.mpr
      (formOf_proper (by decide) (List.nodup_singleton _) hmembers)

theorem ElementDecl.form_proper (d : ElementDecl) : d.form.Proper := by
  induction d using ElementDecl.inside_induction with
  | h d ih =>
    rw [ElementDecl.form_eq]
    refine formOf_proper (by decide) (by simp) (proper_documented ?_)
    cases htype : d.type with
    | named name => exact fun _ he => absurd he List.not_mem_nil
    | given t =>
      rw [htype] at ih
      exact List.forall_mem_singleton.mpr (ComplexType.form_proper ih)

theorem SchemaItem.form_proper (item : SchemaItem) : item.form.Proper := by
  cases item with
  | element d => exact d.form_proper
  | complexType t => exact ComplexType.form_proper fun d _ => d.form_proper
  | simpleType t => exact t.form_proper
  | attributeGroup g => exact g.form_proper

theorem Schema.form_proper (s : Schema) : s.form.Proper :=
  formOf_proper (by decide) (by simp)
    (proper_documented (proper_of_mem_map fun item _ => item.form_proper))

end ElementGrammar.Xsd
