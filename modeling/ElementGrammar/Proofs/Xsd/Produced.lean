import ElementGrammar.Proofs.Xsd.Form
import ElementGrammar.Proofs.Xsd.WellFormed

/-!
# What a schema can be

The values that the rule for a schema gives are the well-formed ones
(`Schema.produced_iff`).

The two directions meet at the written forms.  What is read is a written form, and these are
well-formed; and the form of a well-formed value is one of its written forms
(`Schema.form_written`).  Elements inside are handled by induction on them
(`ElementDecl.form_reads`).

A rule takes no more than `Rule.unlimited` children, so the lists in a value may not be
longer; `Schema.lengths` are their lengths.
-/

namespace ElementGrammar.Xsd

/-! ## Lengths of lists -/

def SimpleKind.lengths : SimpleKind → List Nat
  | .enumeration _ values => [values.length]
  | .union memberTypes => [memberTypes.length]
  | .length .. | .list .. | .alias .. => []

def AttributeType.lengths : AttributeType → List Nat
  | .named _ => []
  | .given t => t.kind.lengths

def attributeLengths (attributes : List AttributeDecl) : List Nat :=
  attributes.length :: attributes.flatMap (·.type.lengths)

mutual

def ElementDecl.lengths : ElementDecl → List Nat
  | ⟨_, _, type, _⟩ => type.lengths

def ElementType.lengths : ElementType → List Nat
  | .named _ => []
  | .given t => t.lengths

def ComplexType.lengths : ComplexType → List Nat
  | ⟨_, _, _, groups, attributes, content⟩ =>
    groups.length :: (attributeLengths attributes ++ content.lengths)

def Content.lengths : Content → List Nat
  | .sequence s => s.lengths
  | .choice c => c.lengths
  | .none => []

def Sequence.lengths : Sequence → List Nat
  | ⟨_, _, elements⟩ => elements.length :: elementLengths elements

def Choice.lengths : Choice → List Nat
  | ⟨elements⟩ => elements.length :: elementLengths elements

def elementLengths : List ElementDecl → List Nat
  | [] => []
  | d :: ds => d.lengths ++ elementLengths ds

end

def SchemaItem.lengths : SchemaItem → List Nat
  | .element d => d.lengths
  | .complexType t => t.lengths
  | .simpleType t => t.kind.lengths
  | .attributeGroup g => attributeLengths g.attributes

/-- The lengths of all the lists in a schema. -/
def Schema.lengths (s : Schema) : List Nat :=
  s.items.length :: s.items.flatMap SchemaItem.lengths

theorem elementLengths_eq_flatMap (ds : List ElementDecl) :
    elementLengths ds = ds.flatMap ElementDecl.lengths := by
  induction ds with
  | nil => rfl
  | cons d ds ih => rw [elementLengths, ih, List.flatMap_cons]

theorem Content.lengths_subset {c : Content} {d : ElementDecl} (h : d ∈ c.inside) :
    d.lengths ⊆ c.lengths := by
  cases c with
  | sequence s =>
    obtain ⟨doc, occurs, elements⟩ := s
    rw [Content.lengths, Sequence.lengths, elementLengths_eq_flatMap]
    exact fun n hn => List.mem_cons_of_mem _ (List.mem_flatMap_of_mem h hn)
  | choice c =>
    obtain ⟨elements⟩ := c
    rw [Content.lengths, Choice.lengths, elementLengths_eq_flatMap]
    exact fun n hn => List.mem_cons_of_mem _ (List.mem_flatMap_of_mem h hn)
  | none => cases h

theorem ComplexType.lengths_subset {t : ComplexType} {d : ElementDecl}
    (h : d ∈ t.content.inside) : d.lengths ⊆ t.lengths := by
  obtain ⟨name, doc, base, groups, attributes, content⟩ := t
  have hcontent : d.lengths ⊆ content.lengths := Content.lengths_subset h
  exact fun n hn => List.mem_cons_of_mem _ (List.mem_append_right _ (hcontent hn))

theorem ElementDecl.lengths_subset {c d : ElementDecl} (h : c ∈ d.type.inside) :
    c.lengths ⊆ d.lengths := by
  obtain ⟨name, doc, type, occurs⟩ := d
  cases type with
  | named name => cases h
  | given t => exact ComplexType.lengths_subset h

/-! ## Documentation and occurrences -/

variable {name doc : String} {names : List String} {cs : List Element}

theorem leafOf_written (name key value : String) :
    Leaf name key (leafOf name key value) value where
  shape := formOf_shape rfl (List.nodup_singleton key) fun _ hc => absurd hc List.not_mem_nil
  text := rfl
  value := by simp [leafOf]

theorem facet_leafOf {n : Nat} (h : n ≤ Text.greatestCount) :
    Facet name (leafOf name "value" n.repr) n :=
  ⟨n.repr, leafOf_written _ _ _, Text.readCount_repr h⟩

theorem annotationOf_written (hdoc : Trimmed doc) : Annotation.Written (annotationOf doc) doc where
  shape := formOf_shape rfl List.nodup_nil fun _ hc => by simp [List.mem_singleton.mp hc]
  text := rfl
  documentation := by
    refine .cons ⟨⟨rfl, Attributes.among_nil_iff.mpr rfl, ?_⟩, hdoc.symm⟩ .nil
    exact fun _ hc => absurd hc List.not_mem_nil

/-- Children without annotations are documented by what is put before them. -/
theorem documents_append (hdoc : Trimmed doc) (h : NamesIn names cs)
    (hnot : "annotation" ∉ names) : Documents (documentedBy doc ++ cs) doc := by
  unfold Documents
  rw [named_append, h.named_eq_nil hnot, List.append_nil,
    (namesIn_documentedBy doc).named_eq_self, documentedBy]
  split
  · exact ⟨none, .nil, (‹doc = ""›).symm⟩
  · exact ⟨some doc, .cons (annotationOf_written hdoc) .nil, rfl⟩

theorem firstDocumented_documentedBy (hdoc : Trimmed doc) :
    FirstDocumented (documentedBy doc) doc := by
  unfold documentedBy
  split
  · exact ‹doc = ""› ▸ .none
  · exact .here (annotationOf_written hdoc)

theorem Occurs.Fits.written {o : Occurs} {as : Attributes} (h : o.Fits)
    (hleast : as.value? "minOccurs" = some o.leastText)
    (hgreatest : as.value? "maxOccurs" = some o.greatestText) : o.Written as where
  least := by
    rw [hleast, leastOf, Occurs.leastText, Text.readCount_repr h.least]
    rfl
  greatest := by
    rw [hgreatest]
    cases ho : o.greatest with
    | none => simp [Occurs.greatestText, ho, greatestOf]
    | some n =>
      have htext : o.greatestText = n.repr := by simp [Occurs.greatestText, ho]
      have hread : Text.readCount n.repr = .ok n := Text.readCount_repr (h.greatest n ho)
      have hne : n.repr ≠ "unbounded" := by
        intro he
        have hnone : (Text.readCount "unbounded").toOption = none := by decide
        rw [← he, hread] at hnone
        cases hnone
      rw [htext, greatestOf, if_neg hne, hread]
      rfl

/-! ## Simple types and attributes -/

theorem SimpleKind.form_written {kind : SimpleKind} (h : kind.WellFormed)
    (hlengths : ∀ n ∈ kind.lengths, n ≤ Rule.unlimited) :
    SimpleKind.Written kind.form kind := by
  cases h with
  | @length base least greatest hleast hgreatest bounded =>
    have hminName (n : Nat) : (leafOf "minLength" "value" n.repr).name = "minLength" := rfl
    have hmaxName (n : Nat) : (leafOf "maxLength" "value" n.repr).name = "maxLength" := rfl
    refine .length (formOf_shape rfl (by decide) ?_) rfl rfl ?_ ?_ bounded
    · exact namesIn_append_iff.mpr ⟨(namesIn_map hminName _).mono (by decide),
        (namesIn_map hmaxName _).mono (by decide)⟩
    · simp +decide only [SimpleKind.form, formOf, named_append, named_map hminName,
        named_map hmaxName, if_true, if_false, List.append_nil]
      exact forall₂_map_self fun n hn => facet_leafOf (hleast n (Option.mem_toList.mp hn))
    · simp +decide only [SimpleKind.form, formOf, named_append, named_map hminName,
        named_map hmaxName, if_true, if_false, List.nil_append]
      exact forall₂_map_self fun n hn => facet_leafOf (hgreatest n (Option.mem_toList.mp hn))
  | @enumeration base values nonempty =>
    have hnames := namesIn_map (leafOf_name "enumeration" "value") values
    refine .enumeration (formOf_shape rfl (by decide) hnames) rfl rfl ⟨?_, ?_⟩ nonempty
    · rw [SimpleKind.form, formOf, hnames.named_eq_self]
      exact forall₂_map_self fun _ _ => leafOf_written _ _ _
    · exact hlengths _ (List.mem_singleton.mpr rfl)
  | list itemType => exact .list (leafOf_written _ _ _)
  | @union memberTypes words =>
    have hwritten := SimpleKind.Written.union
      (leafOf_written "union" "memberTypes" (Text.joined memberTypes))
    rwa [Text.words_joined words] at hwritten
  | unrestricted base => exact .unrestricted (leafOf_written _ _ _)

theorem SimpleType.form_written {t : SimpleType} (h : t.WellFormed)
    (hlengths : ∀ n ∈ t.kind.lengths, n ≤ Rule.unlimited) : SimpleType.Written t.form t := by
  have hkind : NamesIn [t.kind.element] [t.kind.form] := by simp [NamesIn]
  have hne : t.kind.element ≠ "annotation" := by cases t.kind <;> simp [SimpleKind.element]
  exact {
    shape := formOf_shape rfl (by decide)
      (namesIn_documented (hkind.mono (by simp)) List.mem_cons_self)
    text := rfl
    name := by simp [SimpleType.form]
    doc := documents_append h.doc hkind (by simpa using hne.symm)
    kind := by
      rw [SimpleType.form, formOf, named_documentedBy_append hne, hkind.named_eq_self]
      exact .cons (SimpleKind.form_written h.kind hlengths) .nil }

theorem AttributeType.given_written {type : AttributeType} (h : type.WellFormed)
    (hlengths : ∀ n ∈ type.lengths, n ≤ Rule.unlimited) :
    ∀ t ∈ type.given?.toList, SimpleType.Written t.form t := by
  cases h with
  | named name => exact fun _ ht => absurd ht List.not_mem_nil
  | given htype => exact List.forall_mem_singleton.mpr (SimpleType.form_written htype hlengths)

theorem AttributeDecl.form_written {d : AttributeDecl} (h : d.WellFormed)
    (hlengths : ∀ n ∈ d.type.lengths, n ≤ Rule.unlimited) : AttributeDecl.Written d.form d := by
  have htypes := namesIn_map SimpleType.form_name d.type.given?.toList
  exact {
    shape := formOf_shape rfl (by decide)
      (namesIn_documented (htypes.mono (by decide)) (by decide))
    text := (by decide : Text.isBlankText "" = true)
    typeName := by simp [AttributeDecl.form]
    type := by
      rw [AttributeDecl.form, formOf, named_documentedBy_append (by decide), htypes.named_eq_self]
      exact forall₂_map_self (AttributeType.given_written h.type hlengths)
    name := by simp [AttributeDecl.form]
    doc := documents_append h.doc htypes (by decide)
    usage := by simp [AttributeDecl.form]
    default := by simp [AttributeDecl.form] }

/-- Attributes that are written out one after another are listed. -/
theorem attributes_listed {attributes : List AttributeDecl}
    (h : ∀ d ∈ attributes, d.WellFormed)
    (hlengths : ∀ n ∈ attributeLengths attributes, n ≤ Rule.unlimited)
    (hcs : named "attribute" cs = attributes.map AttributeDecl.form) :
    Listed AttributeDecl.Written "attribute" cs attributes := by
  obtain ⟨hlength, hinside⟩ := List.forall_mem_cons.mp hlengths
  refine ⟨?_, hlength⟩
  rw [hcs]
  exact forall₂_map_self fun d hd => AttributeDecl.form_written (h d hd) fun n hn =>
    hinside n (List.mem_flatMap_of_mem hd hn)

theorem AttributeGroup.form_written {g : AttributeGroup} (h : g.WellFormed)
    (hlengths : ∀ n ∈ attributeLengths g.attributes, n ≤ Rule.unlimited) :
    AttributeGroup.Written g.form g := by
  have hnames := namesIn_map AttributeDecl.form_name g.attributes
  exact {
    shape := formOf_shape rfl (by decide) hnames
    text := rfl
    name := by simp [AttributeGroup.form]
    attributes := attributes_listed h.attributes hlengths hnames.named_eq_self
    nonempty := h.nonempty }

/-! ## Elements and complex types -/

theorem Content.WellFormed.inside {c : Content} (h : c.WellFormed) :
    ∀ d ∈ c.inside, d.WellFormed := by
  cases h with
  | sequence inside =>
    cases inside with
    | intro _ _ elements => exact elements
  | choice inside =>
    cases inside with
    | intro elements => exact elements
  | none => exact fun _ hd => absurd hd List.not_mem_nil

theorem ElementType.WellFormed.inside {t : ElementType} (h : t.WellFormed) :
    ∀ d ∈ t.inside, d.WellFormed := by
  cases h with
  | named name => exact fun _ hd => absurd hd List.not_mem_nil
  | given type => exact type.content.inside

/-! Forms of the elements inside are taken to be written forms. -/

section Over

variable {Inner : Element → ElementDecl → Prop}

theorem Sequence.form_written {s : Sequence} (h : s.WellFormed)
    (hlengths : ∀ n ∈ s.lengths, n ≤ Rule.unlimited)
    (hinner : ∀ d ∈ s.elements, Inner d.form d) : s.WrittenOver Inner s.form := by
  have hnames := namesIn_map ElementDecl.form_name s.elements
  cases h with
  | intro hdoc hoccurs _ nonempty =>
    rw [Sequence.form_eq]
    exact {
      shape := formOf_shape rfl (by decide)
        (namesIn_documented (hnames.mono (by decide)) (by decide))
      text := rfl
      doc := documents_append hdoc hnames (by decide)
      occurs := hoccurs.written (by simp) (by simp)
      elements := by
        refine ⟨?_, hlengths _ (by cases s; exact List.mem_cons_self)⟩
        rw [formOf, named_documentedBy_append (by decide), hnames.named_eq_self]
        exact forall₂_map_self hinner
      nonempty := nonempty }

theorem Choice.form_written {c : Choice} (h : c.WellFormed)
    (hlengths : ∀ n ∈ c.lengths, n ≤ Rule.unlimited)
    (hinner : ∀ d ∈ c.elements, Inner d.form d) : c.WrittenOver Inner c.form := by
  have hnames := namesIn_map ElementDecl.form_name c.elements
  cases h with
  | intro _ nonempty =>
    rw [Choice.form_eq]
    exact {
      shape := formOf_shape rfl (by decide) hnames
      text := rfl
      elements := by
        refine ⟨?_, hlengths _ (by cases c; exact List.mem_cons_self)⟩
        rw [formOf, hnames.named_eq_self]
        exact forall₂_map_self hinner
      nonempty := nonempty }

theorem Content.forms_written {c : Content} (h : c.WellFormed)
    (hlengths : ∀ n ∈ c.lengths, n ≤ Rule.unlimited)
    (hinner : ∀ d ∈ c.inside, Inner d.form d) : c.WrittenOver Inner c.forms := by
  cases h with
  | @sequence s inside =>
    have hs := Sequence.form_written inside hlengths hinner
    exact ⟨by simpa [Content.forms, named_cons, Content.sequence?] using hs,
      by simp [Content.forms, named_cons, Content.choice?]⟩
  | @choice c inside =>
    have hc := Choice.form_written inside hlengths hinner
    exact ⟨by simp [Content.forms, named_cons, Content.sequence?],
      by simpa [Content.forms, named_cons, Content.choice?] using hc⟩
  | none => exact ⟨.nil, .nil⟩

theorem ComplexType.members_written {t : ComplexType} (h : t.WellFormed)
    (hlengths : ∀ n ∈ t.lengths, n ≤ Rule.unlimited)
    (hinner : ∀ d ∈ t.content.inside, Inner d.form d) : t.MembersOver Inner t.members := by
  have hgroups := named_attributeGroup_members t
  have hattributes := named_attribute_members t
  have hsequence : named "sequence" t.members = named "sequence" t.content.forms :=
    named_content_members t (by decide)
  have hchoice : named "choice" t.members = named "choice" t.content.forms :=
    named_content_members t (by decide)
  obtain ⟨name, doc, base, groups, attributes, content⟩ := t
  cases h with
  | intro _ hinside hcontent =>
    obtain ⟨hgroupLength, hrest⟩ := List.forall_mem_cons.mp hlengths
    obtain ⟨hattributeLengths, hcontentLengths⟩ := List.forall_mem_append.mp hrest
    have hforms := Content.forms_written hcontent hcontentLengths hinner
    refine ⟨⟨?_, hgroupLength⟩, attributes_listed hinside hattributeLengths hattributes, ?_⟩
    · rw [hgroups]
      exact forall₂_map_self fun _ _ => leafOf_written _ _ _
    · exact ⟨hsequence ▸ hforms.sequence, hchoice ▸ hforms.choice⟩

theorem ComplexType.MembersOver.documented {t : ComplexType} (h : t.MembersOver Inner cs) :
    t.MembersOver Inner (documentedBy doc ++ cs) where
  groups := ⟨by rw [named_documentedBy_append (by decide)]; exact h.groups.forms, h.groups.length⟩
  attributes :=
    ⟨by rw [named_documentedBy_append (by decide)]; exact h.attributes.forms, h.attributes.length⟩
  content :=
    ⟨by rw [named_documentedBy_append (by decide)]; exact h.content.sequence,
      by rw [named_documentedBy_append (by decide)]; exact h.content.choice⟩

theorem extensionOf_written {t : ComplexType} {base : String} (hbase : t.base = some base)
    (h : t.MembersOver Inner t.members) :
    Extension.WrittenOver Inner (extensionOf base t.members) t where
  shape := formOf_shape rfl (by decide) (namesIn_members t)
  text := rfl
  base := by simp [extensionOf, hbase]
  extended := by simp [hbase]
  members := h

theorem ComplexType.body_written {t : ComplexType} (h : t.MembersOver Inner t.members) :
    t.BodyOver Inner (documentedBy t.doc ++ extending t.base t.members) := by
  cases hbase : t.base with
  | none =>
    exact .own (namesIn_documented ((namesIn_members t).mono (by decide)) (by decide)) hbase
      h.documented
  | some base =>
    have hextension : NamesIn ["extension"] [extensionOf base t.members] :=
      List.forall_mem_singleton.mpr List.mem_cons_self
    have hcontent : NamesIn ["complexContent"] (extending (some base) t.members) :=
      List.forall_mem_singleton.mpr List.mem_cons_self
    refine .extension (namesIn_documented (hcontent.mono (by decide)) (by decide)) ?_
    rw [named_documentedBy_append (by decide), hcontent.named_eq_self]
    refine .cons ⟨formOf_shape rfl (by decide) hextension, rfl, ?_⟩ .nil
    rw [formOf, hextension.named_eq_self]
    exact .cons (extensionOf_written hbase h) .nil

theorem ComplexType.form_written {t : ComplexType} (h : t.WellFormed)
    (hlengths : ∀ n ∈ t.lengths, n ≤ Rule.unlimited)
    (hinner : ∀ d ∈ t.content.inside, Inner d.form d) : t.WrittenOver Inner t.form := by
  have hmembers := ComplexType.members_written h hlengths hinner
  cases h with
  | intro hdoc _ _ =>
    rw [ComplexType.form_eq]
    exact {
      element := rfl
      attrs := Attributes.among_given rfl (by decide)
      text := rfl
      name := by simp
      doc := documents_append hdoc (namesIn_extending t) (by decide)
      body := ComplexType.body_written hmembers }

theorem ElementType.given_written {type : ElementType} (h : type.WellFormed)
    (hlengths : ∀ n ∈ type.lengths, n ≤ Rule.unlimited)
    (hinner : ∀ d ∈ type.inside, Inner d.form d) :
    ∀ t ∈ type.given?.toList, t.WrittenOver Inner t.form := by
  cases h with
  | named name => exact fun _ ht => absurd ht List.not_mem_nil
  | given htype =>
    exact List.forall_mem_singleton.mpr (ComplexType.form_written htype hlengths hinner)

theorem ElementDecl.form_writtenOver {d : ElementDecl} (h : d.WellFormed)
    (hlengths : ∀ n ∈ d.lengths, n ≤ Rule.unlimited)
    (hinner : ∀ c ∈ d.type.inside, Inner c.form c) : d.WrittenOver Inner d.form := by
  have htypes := namesIn_map ComplexType.form_name d.type.given?.toList
  rw [ElementDecl.form_eq]
  cases h with
  | intro hdoc htype hoccurs =>
    exact {
      shape := formOf_shape rfl (by decide)
        (namesIn_documented (htypes.mono (by decide)) (by decide))
      text := rfl
      nillable := by simp
      typeName := by simp
      type := by
        rw [formOf, named_documentedBy_append (by decide), htypes.named_eq_self]
        refine forall₂_map_self (ElementType.given_written htype ?_ hinner)
        cases d
        exact hlengths
      name := by simp
      doc := documents_append hdoc htypes (by decide)
      occurs := hoccurs.written (by simp) (by simp) }

end Over

/-- The form of a well-formed element is read as that element. -/
theorem ElementDecl.form_reads {a : Arrangement} (ha : a.IsPermutation) (d : ElementDecl)
    (h : d.WellFormed) (hlengths : ∀ n ∈ d.lengths, n ≤ Rule.unlimited) :
    (ElementDecl.rule a).Reads d.form d := by
  induction d using ElementDecl.inside_induction with
  | h d ih =>
    -- The rule for elements inside is the rule itself, so they are read by the hypothesis.
    refine (reads_element_iff ha).mpr (ElementDecl.form_writtenOver h hlengths fun c hc => ?_)
    exact ih c hc (h.type.inside c hc) fun n hn => hlengths n (ElementDecl.lengths_subset hc hn)

/-! ## Schemas -/

theorem SchemaItem.form_written {item : SchemaItem} {a : Arrangement} (ha : a.IsPermutation)
    (h : item.WellFormed) (hlengths : ∀ n ∈ item.lengths, n ≤ Rule.unlimited) :
    item.WrittenOver (ElementDecl.rule a).Reads item.form := by
  cases h with
  | element inside => exact ElementDecl.form_reads ha _ inside hlengths
  | complexType inside =>
    refine ComplexType.form_written inside hlengths fun d hd => ?_
    exact ElementDecl.form_reads ha d (inside.content.inside d hd) fun n hn =>
      hlengths n (ComplexType.lengths_subset hd hn)
  | simpleType inside => exact SimpleType.form_written inside hlengths
  | attributeGroup inside => exact AttributeGroup.form_written inside hlengths

theorem declaringChildren_form (doc : String) (items : List SchemaItem) :
    declaringChildren (documentedBy doc ++ items.map SchemaItem.form) =
      items.map SchemaItem.form := by
  have hitems := namesIn_itemForms items
  have hothers : ∀ name ∉ ["element", "complexType", "simpleType", "attributeGroup"],
      others name (items.map SchemaItem.form) = items.map SchemaItem.form :=
    fun name hname => others_of_named_nil (hitems.named_eq_nil hname)
  have hdoc : declaringChildren (documentedBy doc) = [] := by
    unfold documentedBy
    split
    · rfl
    · rfl
  have hsplit : ∀ cs cs', declaringChildren (cs ++ cs') =
      declaringChildren cs ++ declaringChildren cs' := by
    intro cs cs'
    simp only [declaringChildren, others, List.filter_append]
  rw [hsplit, hdoc, declaringChildren, hothers _ (by decide), hothers _ (by decide),
    hothers _ (by decide), List.nil_append]

theorem withoutNamespaces_form (s : Schema) :
    withoutNamespaces s.form.attrs = s.form.attrs := by
  have hkey : (!"xmlns".toList.isPrefixOf "targetNamespace".toList) = true := by decide
  obtain ⟨targetNamespace, doc, items⟩ := s
  cases targetNamespace with
  | none => rfl
  | some targetNamespace =>
    exact List.filter_eq_self.mpr (List.forall_mem_singleton.mpr hkey)

/-- The form of a well-formed schema is a written form of it. -/
theorem Schema.form_written {s : Schema} {a : Arrangement} (ha : a.IsPermutation)
    (h : s.WellFormed) (hlengths : ∀ n ∈ s.lengths, n ≤ Rule.unlimited) :
    s.WrittenOver (ElementDecl.rule a).Reads s.form := by
  obtain ⟨hlength, hinside⟩ := List.forall_mem_cons.mp hlengths
  exact {
    element := rfl
    attrs := by
      rw [withoutNamespaces_form]
      exact Attributes.among_given rfl (by decide)
    text := rfl
    targetNamespace := by
      rw [withoutNamespaces_form]
      simp [Schema.form]
    doc := by
      rw [Schema.form, formOf, named_append, (namesIn_documentedBy s.doc).named_eq_self,
        (namesIn_itemForms s.items).named_eq_nil (by decide), List.append_nil]
      exact firstDocumented_documentedBy h.doc
    items := by
      rw [Schema.form, formOf, declaringChildren_form]
      exact forall₂_map_self fun item hitem => SchemaItem.form_written ha (h.items item hitem)
        fun n hn => hinside n (List.mem_flatMap_of_mem hitem hn)
    length := hlength }

/-! ## Values of the rule for a schema -/

theorem Schema.run_eq_ok_iff_written (tracing : Tracing) {s : Schema} {e : Element} :
    ((Schema.rule .declared).run tracing e).outcome = .ok s ↔
      s.WrittenOver (ElementDecl.rule .declared).Reads e := by
  have hblind : (Schema.rule .declared).Blind := blind_withLevels blind_schemaOver
  rw [Rule.run_eq_ok_iff tracing hblind, reads_schema Arrangement.declared_isPermutation]

/-- The form of a well-formed schema is read as that schema. -/
theorem Schema.run_form (tracing : Tracing) {s : Schema} (h : s.WellFormed)
    (hlengths : ∀ n ∈ s.lengths, n ≤ Rule.unlimited) :
    ((Schema.rule .declared).run tracing s.form).outcome = .ok s :=
  (Schema.run_eq_ok_iff_written tracing).mpr
    (Schema.form_written Arrangement.declared_isPermutation h hlengths)

/-- The values that the rule for a schema gives are the well-formed ones. -/
theorem Schema.produced_iff (tracing : Tracing) {s : Schema}
    (hlengths : ∀ n ∈ s.lengths, n ≤ Rule.unlimited) :
    (∃ e : Element, e.Proper ∧ ((Schema.rule .declared).run tracing e).outcome = .ok s) ↔
      s.WellFormed := by
  constructor
  · rintro ⟨e, _, hrun⟩
    have hwritten := (Schema.run_eq_ok_iff_written tracing).mp hrun
    exact hwritten.wellFormed fun _ _ =>
      ElementDecl.wellFormed_of_reads Arrangement.declared_isPermutation
  · intro h
    exact ⟨s.form, s.form_proper, Schema.run_form tracing h hlengths⟩

/-- An element that holds another one or more times, and a type with two members. -/
def shelves : Schema :=
  ⟨some "urn:shelves", "What is on a shelf.",
    [.element ⟨some "shelf", "",
      .given ⟨none, "", some "furniture", ["common"], [],
        .sequence ⟨"", ⟨1, none⟩, [⟨some "book", "", .named "title", ⟨0, some 12⟩⟩]⟩⟩, ⟨1, some 1⟩⟩,
      .simpleType ⟨some "title", "", .union ["xs:string", "code"]⟩]⟩

/-- A group that has no attributes. -/
def hollow : Schema :=
  ⟨none, "", [.attributeGroup ⟨"common", []⟩]⟩

theorem shelves_wellFormed : shelves.WellFormed where
  doc := by unfold Trimmed; decide
  items := by
    have hbook : ElementDecl.WellFormed ⟨some "book", "", .named "title", ⟨0, some 12⟩⟩ :=
      .intro trimmed_empty (.named _) ⟨by decide, by decide⟩
    refine List.forall_mem_cons.mpr
      ⟨.element (.intro trimmed_empty (.given ?_) ⟨by decide, by decide⟩),
        List.forall_mem_singleton.mpr (.simpleType ⟨trimmed_empty, .union ?_⟩)⟩
    · refine .intro trimmed_empty (fun _ hd => absurd hd List.not_mem_nil) (.sequence ?_)
      exact .intro trimmed_empty ⟨by decide, by decide⟩ (List.forall_mem_singleton.mpr hbook)
        (List.cons_ne_nil _ _)
    · exact List.forall_mem_cons.mpr ⟨⟨by decide, by simp [Text.isBlank]⟩,
        List.forall_mem_singleton.mpr ⟨by decide, by simp [Text.isBlank]⟩⟩

theorem Schema.produced_iff_shelves :
    (∀ n ∈ shelves.lengths ++ hollow.lengths, n ≤ Rule.unlimited) ∧
      (∃ e : Element, e.Proper ∧
        ((Schema.rule .declared).run .silent e).outcome = .ok shelves) ∧
      ¬∃ e : Element, e.Proper ∧
        ((Schema.rule .declared).run .silent e).outcome = .ok hollow := by
  have hlengths : ∀ n ∈ shelves.lengths ++ hollow.lengths, n ≤ Rule.unlimited := by decide
  obtain ⟨hshelves, hhollow⟩ := List.forall_mem_append.mp hlengths
  refine ⟨hlengths, (Schema.produced_iff .silent hshelves).mpr shelves_wellFormed, ?_⟩
  rw [Schema.produced_iff .silent hhollow]
  intro h
  cases h.items _ (List.mem_singleton.mpr rfl) with
  | attributeGroup inside => exact inside.nonempty rfl

end ElementGrammar.Xsd
