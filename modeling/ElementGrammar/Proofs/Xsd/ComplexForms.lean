import ElementGrammar.Proofs.Xsd.Conditions

/-!
# The two forms of a complex type

A complex type is written as an extension of another type, or with members of its own.  Which
elements are accepted is said here child by child.

* `ComplexType.Members` are the children that the members may be, whichever form they are in:
  groups, attributes, and one sequence or choice at most.  Attributes, sequences and choices
  are judged by the rules of their own.
* `ComplexType.ExtensionForm` and `ComplexType.PlainForm` are the two forms.
* `ComplexType.HasMembers` says what the members give, and `ComplexType.ValueOf` what the
  whole element gives.

`ComplexType.run_admitted_iff` puts these together, for elements with distinct attributes and
not too many children, at every level.  It goes through the written forms:
`ComplexType.membersOver_iff_hasMembers` translates the members,
`ComplexType.extension_iff_hasMembers` and `ComplexType.own_iff_hasMembers` the two forms, and
`ComplexType.Admitted.exists_valueOf` finds the value.
-/

namespace ElementGrammar.Xsd

namespace ComplexType

variable (tracing : Tracing)

/-! ## Conditions -/

/-- Children that are the members of a type. -/
structure Members (cs : List Element) : Prop where
  names : NamesIn ["attributeGroup", "attribute", "sequence", "choice"] cs
  groups : ∀ c ∈ named "attributeGroup" cs, ∃ group, c.OnlyAttr "ref" group
  attributes : ∀ c ∈ named "attribute" cs, (AttributeDecl.rule .declared).Matches tracing c
  single : (named "sequence" cs ++ named "choice" cs).length ≤ 1
  sequence : ∀ c ∈ named "sequence" cs, (Sequence.rule .declared).Matches tracing c
  choice : ∀ c ∈ named "choice" cs, (Choice.rule .declared).Matches tracing c

/-- A single child, which holds an extension of a type and nothing else. -/
inductive Extends : (cs : List Element) → (base : String) → (members : List Element) → Prop where
  | intro {content extension : Element} {base : String}
    (name : content.name = "complexContent") (attrs : content.attrs = [])
    (children : content.children = [extension]) (extensionName : extension.name = "extension")
    (extensionText : extension.text = none)
    (extensionAttrs : extension.attrs = [⟨"base", base⟩]) :
    Extends [content] base extension.children

/-- Children that are an extension of a type with some members. -/
structure ExtensionForm (cs : List Element) (base : String) (members : List Element) :
    Prop where
  extension : Extends cs base members
  members : Members tracing members

/-- Children that are members, and wildcards for attributes. -/
def PlainForm (cs : List Element) : Prop :=
  Members tracing (others "anyAttribute" cs)

/-- Everything in the element may be there. -/
structure Admitted (e : Element) : Prop where
  name : e.name = "complexType"
  text : e.text = none
  attrs : ∀ a ∈ e.attrs, a.name ∈ ["abstract", "name"]
  annotated : Annotated e.children
  form : (∃ base members, ExtensionForm tracing (others "annotation" e.children) base members) ∨
    PlainForm tracing (others "annotation" e.children)

/-! ## Values -/

/-- What the members of a type give, each part in the order of the children. -/
structure HasMembers (cs : List Element) (t : ComplexType) : Prop where
  groups : List.Forall₂ (fun c group => c.OnlyAttr "ref" group) (named "attributeGroup" cs)
    t.attributeGroups
  attributes : List.Forall₂
    (fun c d => (AttributeDecl.rule .declared).verdict tracing c = .ok d) (named "attribute" cs)
    t.attributes
  sequence : List.Forall₂ (fun c s => (Sequence.rule .declared).verdict tracing c = .ok s)
    (named "sequence" cs) t.content.sequence?.toList
  choice : List.Forall₂ (fun c v => (Choice.rule .declared).verdict tracing c = .ok v)
    (named "choice" cs) t.content.choice?.toList

/-- The parts of the value of a complex type. -/
structure ValueOf (e : Element) (t : ComplexType) : Prop where
  name : t.name = e.attrs.value? "name"
  doc : Documents e.children t.doc
  ofExtension : ∀ base members,
    ExtensionForm tracing (others "annotation" e.children) base members →
      t.base = some base ∧ HasMembers tracing members t
  ofPlain : PlainForm tracing (others "annotation" e.children) →
    t.base = none ∧ HasMembers tracing (others "anyAttribute" (others "annotation" e.children)) t

variable {tracing} {cs members : List Element} {base : String} {t : ComplexType}

/-! ## Members -/

/-- Written members are members with their values. -/
theorem membersOver_iff_hasMembers (tracing : Tracing) (hlength : cs.length ≤ Rule.unlimited) :
    t.MembersOver (ElementDecl.rule .declared).Reads cs ↔ HasMembers tracing cs t := by
  have hattributes : AttributeDecl.Written =
      fun c d => (AttributeDecl.rule .declared).verdict tracing c = .ok d :=
    funext₂ fun _ _ => propext (verdict_attributeDecl_iff tracing).symm
  have hsequence : Sequence.WrittenOver (ElementDecl.rule .declared).Reads =
      fun c s => (Sequence.rule .declared).verdict tracing c = .ok s :=
    funext₂ fun _ _ => propext (verdict_sequence_iff tracing).symm
  have hchoice : Choice.WrittenOver (ElementDecl.rule .declared).Reads =
      fun c v => (Choice.rule .declared).verdict tracing c = .ok v :=
    funext₂ fun _ _ => propext (verdict_choice_iff tracing).symm
  rw [membersOver_iff, listed_iff_forall₂ hlength, listed_iff_forall₂ hlength, forall₂_leaf_iff]
  constructor
  · intro h
    obtain ⟨hgroups, hattrs, hcontent⟩ := h
    exact ⟨hgroups, hattributes ▸ hattrs, hsequence ▸ hcontent.sequence,
      hchoice ▸ hcontent.choice⟩
  · intro h
    exact ⟨h.groups, hattributes.symm ▸ h.attributes, hsequence.symm ▸ h.sequence,
      hchoice.symm ▸ h.choice⟩

/-- Children with the values of members are members. -/
theorem HasMembers.toMembers (h : HasMembers tracing cs t)
    (hnames : NamesIn ["attributeGroup", "attribute", "sequence", "choice"] cs) :
    Members tracing cs where
  names := hnames
  groups := exists_forall₂_iff.mp ⟨_, h.groups⟩
  attributes := exists_forall₂_iff.mp ⟨_, h.attributes⟩
  single := by
    rw [List.length_append, h.sequence.length_eq, h.choice.length_eq]
    cases t.content with
    | sequence s => exact Nat.le_refl 1
    | choice v => exact Nat.le_refl 1
    | none => exact Nat.zero_le 1
  sequence := exists_forall₂_iff.mp ⟨_, h.sequence⟩
  choice := exists_forall₂_iff.mp ⟨_, h.choice⟩

/-- A sequence, a choice or neither is a content. -/
theorem Members.exists_content (h : Members tracing cs) :
    ∃ content : Content,
      List.Forall₂ (fun c s => (Sequence.rule .declared).verdict tracing c = .ok s)
          (named "sequence" cs) content.sequence?.toList ∧
        List.Forall₂ (fun c v => (Choice.rule .declared).verdict tracing c = .ok v)
          (named "choice" cs) content.choice?.toList := by
  have hsingle := h.single
  rw [List.length_append] at hsingle
  obtain ⟨o, hsequence⟩ := exists_option_forall₂_iff.mpr
    ⟨show (named "sequence" cs).length ≤ 1 by omega, h.sequence⟩
  obtain ⟨o', hchoice⟩ := exists_option_forall₂_iff.mpr
    ⟨show (named "choice" cs).length ≤ 1 by omega, h.choice⟩
  rw [hsequence.length_eq, hchoice.length_eq] at hsingle
  cases o with
  | none =>
    cases o' with
    | none => exact ⟨.none, hsequence, hchoice⟩
    | some v => exact ⟨.choice v, hsequence, hchoice⟩
  | some s =>
    cases o' with
    | none => exact ⟨.sequence s, hsequence, hchoice⟩
    | some v => exact absurd hsingle (Nat.not_succ_le_self 1)

/-- Members have values. -/
theorem Members.exists_hasMembers (h : Members tracing cs) (name : Option String)
    (doc : String) (base : Option String) :
    ∃ t : ComplexType, t.name = name ∧ t.doc = doc ∧ t.base = base ∧
      HasMembers tracing cs t := by
  obtain ⟨groups, hgroups⟩ := exists_forall₂_iff.mpr h.groups
  obtain ⟨attributes, hattributes⟩ := exists_forall₂_iff.mpr h.attributes
  obtain ⟨content, hsequence, hchoice⟩ := h.exists_content
  exact ⟨⟨name, doc, base, groups, attributes, content⟩, rfl, rfl, rfl, hgroups, hattributes,
    hsequence, hchoice⟩

/-! ## Forms -/

/-- An extension is one of one type only. -/
theorem Extends.unique {base' : String} {members' : List Element} (h : Extends cs base members)
    (h' : Extends cs base' members') : base' = base ∧ members' = members := by
  cases h with
  | intro _ _ children _ _ attrs =>
    cases h' with
    | intro _ _ children' _ _ attrs' =>
      rw [children] at children'
      cases children'
      rw [attrs] at attrs'
      cases attrs'
      exact ⟨rfl, rfl⟩

/-- The two forms exclude each other. -/
theorem ExtensionForm.not_plainForm (h : ExtensionForm tracing cs base members) :
    ¬ PlainForm tracing cs := by
  intro hplain
  have hnames := namesIn_others_iff.mp hplain.names
  obtain ⟨hextends, _⟩ := h
  cases hextends with
  | @intro content _ _ name =>
    have hcontent := hnames content List.mem_cons_self
    rw [name] at hcontent
    exact absurd hcontent (by decide)

/-- A written extension is an extension with its base and its members. -/
theorem extension_iff_hasMembers (tracing : Tracing) (t : ComplexType)
    (hproper : ∀ c ∈ cs, c.Proper)
    (hwidth : ∀ c ∈ cs, c.width ≤ Rule.unlimited) :
    NamesIn ["complexContent"] cs ∧
        List.Forall₂ (ComplexContent.WrittenOver (ElementDecl.rule .declared).Reads)
          (named "complexContent" cs) [t] ↔
      ∃ base members, ExtensionForm tracing cs base members ∧ t.base = some base ∧
        HasMembers tracing members t := by
  rw [namesIn_forall₂_singleton_iff]
  constructor
  · intro h
    obtain ⟨content, rfl, hname, hcontent⟩ := h
    obtain ⟨extension, hchildren, hextension, hwritten⟩ :=
      namesIn_forall₂_singleton_iff.mp ⟨hcontent.shape.children, hcontent.extension⟩
    obtain ⟨base, hbase⟩ := Option.ne_none_iff_exists'.mp hwritten.extended
    have hattrs : extension.attrs = [⟨"base", base⟩] :=
      Attributes.among_value?_iff.mp ⟨hwritten.shape.attrs, hwritten.base.trans hbase⟩
    have hmem : extension ∈ content.children := hchildren ▸ List.mem_cons_self
    have hlength : extension.children.length ≤ Rule.unlimited :=
      Nat.le_trans (Element.length_children_le_of_mem hmem) (hwidth content List.mem_cons_self)
    have hmembers : HasMembers tracing extension.children t :=
      (membersOver_iff_hasMembers tracing hlength).mp hwritten.members
    have hextends : Extends [content] base extension.children :=
      .intro hname (Attributes.among_nil_iff.mp hcontent.shape.attrs) hchildren hextension
        hwritten.text hattrs
    exact ⟨base, _, ⟨hextends, hmembers.toMembers hwritten.shape.children⟩, hbase, hmembers⟩
  · intro h
    obtain ⟨base, members, ⟨hextends, hnames⟩, hbase, hmembers⟩ := h
    cases hextends with
    | @intro content extension _ name attrs children extensionName extensionText extensionAttrs =>
      have hmem : extension ∈ content.children := children ▸ List.mem_cons_self
      have hlength : extension.children.length ≤ Rule.unlimited :=
        Nat.le_trans (Element.length_children_le_of_mem hmem) (hwidth content List.mem_cons_self)
      obtain ⟨hamong, hvalue⟩ := Attributes.among_value?_iff.mpr extensionAttrs
      have hwritten : Extension.WrittenOver (ElementDecl.rule .declared).Reads extension t := by
        refine ⟨⟨extensionName, hamong, hnames.names⟩, extensionText, hvalue.trans hbase.symm, ?_,
          (membersOver_iff_hasMembers tracing hlength).mpr hmembers⟩
        rw [hbase]
        exact Option.some_ne_none base
      obtain ⟨hinside, hall⟩ :=
        namesIn_forall₂_singleton_iff.mpr ⟨extension, children, extensionName, hwritten⟩
      have htext : content.text = none :=
        (hproper content List.mem_cons_self).text_eq_none hmem
      exact ⟨content, rfl, name, ⟨name, Attributes.among_nil_iff.mpr attrs, hinside⟩, htext, hall⟩

/-- Written members among wildcards are the plain form. -/
theorem own_iff_hasMembers (tracing : Tracing) (t : ComplexType)
    (hlength : cs.length ≤ Rule.unlimited) :
    NamesIn ["attributeGroup", "attribute", "anyAttribute", "sequence", "choice"] cs ∧
        t.MembersOver (ElementDecl.rule .declared).Reads cs ↔
      PlainForm tracing cs ∧ HasMembers tracing (others "anyAttribute" cs) t := by
  have hlength' : (others "anyAttribute" cs).length ≤ Rule.unlimited :=
    Nat.le_trans (List.length_filter_le _ _) hlength
  have hother : "anyAttribute" ∉ ["attributeGroup", "attribute", "sequence", "choice"] := by
    decide
  rw [← membersOver_others hother, membersOver_iff_hasMembers tracing hlength']
  constructor
  · intro h
    obtain ⟨hnames, hmembers⟩ := h
    refine ⟨hmembers.toMembers ?_, hmembers⟩
    exact namesIn_others_iff.mpr (hnames.mono (by decide))
  · intro h
    obtain ⟨hplain, hmembers⟩ := h
    exact ⟨(namesIn_others_iff.mp hplain.names).mono (by decide), hmembers⟩

/-! ## Complex types -/

variable {e : Element}

/-- A written body is in one of the two forms. -/
theorem bodyOver_iff_form (tracing : Tracing) (t : ComplexType) (hproper : e.Proper)
    (hwidth : e.width ≤ Rule.unlimited) :
    BodyOver (ElementDecl.rule .declared).Reads e.children t ↔
      (∃ base members, ExtensionForm tracing (others "annotation" e.children) base members ∧
          t.base = some base ∧ HasMembers tracing members t) ∨
        (PlainForm tracing (others "annotation" e.children) ∧ t.base = none ∧
          HasMembers tracing (others "anyAttribute" (others "annotation" e.children)) t) := by
  have hinside : ∀ c ∈ others "annotation" e.children, c ∈ e.children :=
    fun c hc => List.mem_of_mem_filter hc
  have hproper' : ∀ c ∈ others "annotation" e.children, c.Proper := by
    obtain ⟨_, _, hproper⟩ := Element.proper_iff.mp hproper
    exact fun c hc => hproper c (hinside c hc)
  have hwidth' : ∀ c ∈ others "annotation" e.children, c.width ≤ Rule.unlimited :=
    fun c hc => Nat.le_trans (Element.width_le_of_mem (hinside c hc)) hwidth
  have hlength : (others "annotation" e.children).length ≤ Rule.unlimited :=
    Nat.le_trans (List.length_filter_le _ _)
      (Nat.le_trans Element.length_children_le_width hwidth)
  have hextension := extension_iff_hasMembers tracing t hproper' hwidth'
  have hown := own_iff_hasMembers tracing t hlength
  rw [namesIn_others_iff, named_others (by decide)] at hextension
  rw [namesIn_others_iff, membersOver_others (by decide)] at hown
  constructor
  · intro h
    cases h with
    | extension hnames hcontent => exact Or.inl (hextension.mp ⟨hnames, hcontent⟩)
    | own hnames hbase hmembers =>
      obtain ⟨hplain, hvalues⟩ := hown.mp ⟨hnames, hmembers⟩
      exact Or.inr ⟨hplain, hbase, hvalues⟩
  · intro h
    rcases h with h | ⟨hplain, hbase, hvalues⟩
    · obtain ⟨hnames, hcontent⟩ := hextension.mpr h
      exact .extension hnames hcontent
    · obtain ⟨hnames, hmembers⟩ := hown.mpr ⟨hplain, hvalues⟩
      exact .own hnames hbase hmembers

/-- A complex type is written where the element is admitted, and has the value that the parts
of the element give. -/
theorem writtenOver_iff_valueOf (hproper : e.Proper) (hwidth : e.width ≤ Rule.unlimited) :
    WrittenOver (ElementDecl.rule .declared).Reads e t ↔
      Admitted tracing e ∧ ValueOf tracing e t := by
  have hbody := bodyOver_iff_form tracing t hproper hwidth
  constructor
  · intro h
    have hannotated : Annotated e.children := exists_documents_iff.mp ⟨_, h.doc⟩
    rcases hbody.mp h.body with ⟨base, members, hform, hbase, hmembers⟩ | ⟨hform, hbase, hmembers⟩
    · refine ⟨⟨h.element, h.text, h.attrs.mem, hannotated, Or.inl ⟨base, members, hform⟩⟩,
        h.name.symm, h.doc, ?_, fun hplain => absurd hplain hform.not_plainForm⟩
      intro base' members' hform'
      obtain ⟨rfl, rfl⟩ := hform.extension.unique hform'.extension
      exact ⟨hbase, hmembers⟩
    · exact ⟨⟨h.element, h.text, h.attrs.mem, hannotated, Or.inr hform⟩, h.name.symm, h.doc,
        fun _ _ hform' => absurd hform hform'.not_plainForm, fun _ => ⟨hbase, hmembers⟩⟩
  · intro h
    obtain ⟨hadmitted, hvalue⟩ := h
    obtain ⟨_, hdistinct, _⟩ := Element.proper_iff.mp hproper
    refine ⟨hadmitted.name, ⟨hdistinct, hadmitted.attrs⟩, hadmitted.text, hvalue.name.symm,
      hvalue.doc, hbody.mpr ?_⟩
    rcases hadmitted.form with ⟨base, members, hform⟩ | hform
    · exact Or.inl ⟨base, members, hform, hvalue.ofExtension base members hform⟩
    · exact Or.inr ⟨hform, hvalue.ofPlain hform⟩

/-- An element that is admitted has a value. -/
theorem Admitted.exists_valueOf (h : Admitted tracing e) : ∃ t, ValueOf tracing e t := by
  obtain ⟨doc, hdoc⟩ := exists_documents_iff.mpr h.annotated
  rcases h.form with ⟨base, members, hform⟩ | hform
  · obtain ⟨t, hname, rfl, hbase, hmembers⟩ :=
      hform.members.exists_hasMembers (e.attrs.value? "name") doc (some base)
    refine ⟨t, hname, hdoc, ?_, fun hplain => absurd hplain hform.not_plainForm⟩
    intro base' members' hform'
    obtain ⟨rfl, rfl⟩ := hform.extension.unique hform'.extension
    exact ⟨hbase, hmembers⟩
  · obtain ⟨t, hname, rfl, hbase, hmembers⟩ :=
      Members.exists_hasMembers hform (e.attrs.value? "name") doc none
    exact ⟨t, hname, hdoc, fun _ _ hform' => absurd hform hform'.not_plainForm,
      fun _ => ⟨hbase, hmembers⟩⟩

/-- A complex type is read where everything in the element may be there, in one of two forms
that exclude each other, and its value comes from the parts of the element. -/
theorem run_admitted_iff (tracing : Tracing) {e : Element} (hproper : e.Proper)
    (hwidth : e.width < Rule.unlimited) :
    ((∃ t, ((ComplexType.rule .declared).run tracing e).outcome = .ok t) ↔
        Admitted tracing e) ∧
      (∀ base members, ExtensionForm tracing (others "annotation" e.children) base members →
        ¬ PlainForm tracing (others "annotation" e.children)) ∧
      ∀ t, ((ComplexType.rule .declared).run tracing e).outcome = .ok t →
        ValueOf tracing e t := by
  have hrun : ∀ t, ((ComplexType.rule .declared).run tracing e).outcome = .ok t ↔
      Admitted tracing e ∧ ValueOf tracing e t := fun _ =>
    (verdict_complexType_iff tracing).trans (writtenOver_iff_valueOf hproper (Nat.le_of_lt hwidth))
  refine ⟨?_, fun _ _ => ExtensionForm.not_plainForm, fun t ht => ((hrun t).mp ht).2⟩
  constructor
  · intro h
    obtain ⟨t, ht⟩ := h
    exact ((hrun t).mp ht).1
  · intro h
    obtain ⟨t, ht⟩ := h.exists_valueOf
    exact ⟨t, (hrun t).mpr ⟨h, ht⟩⟩

/-- A type that extends another by an attribute and a group, with an annotation after that. -/
def badge : Element :=
  ⟨"complexType", [⟨"name", "Employee"⟩],
    [⟨"complexContent", [],
        [⟨"extension", [⟨"base", "Person"⟩],
          [⟨"attribute", [⟨"name", "badge"⟩, ⟨"type", "xs:int"⟩], [], none⟩,
            ⟨"attributeGroup", [⟨"ref", "common"⟩], [], none⟩], none⟩], none⟩,
      ⟨"annotation", [], [⟨"documentation", [], [], some " Staff. "⟩], none⟩], none⟩

theorem run_admitted_iff_badge :
    badge.Proper ∧ badge.width < Rule.unlimited ∧ Admitted .silent badge ∧
      ValueOf .silent badge ⟨some "Employee", "Staff.", some "Person", ["common"],
        [⟨"badge", "", .named "xs:int", none, none⟩], .none⟩ := by
  have hproper : badge.Proper := by decide
  have hwidth : badge.width < Rule.unlimited := by decide
  obtain ⟨hiff, _, hvalue⟩ := run_admitted_iff .silent hproper hwidth
  have hrun : ((ComplexType.rule .declared).run .silent badge).outcome =
      .ok ⟨some "Employee", "Staff.", some "Person", ["common"],
        [⟨"badge", "", .named "xs:int", none, none⟩], .none⟩ := rfl
  exact ⟨hproper, hwidth, hiff.mp ⟨_, hrun⟩, hvalue _ hrun⟩

end ComplexType

end ElementGrammar.Xsd
