import ElementGrammar.Proofs.Xsd.Conditions

/-!
# The forms of elements and attributes

An element and an attribute each have a type, which is named by an attribute or given by a
child.  A sequence and a choice hold elements.

* `TypeSource` is where a type comes from.  An element with a name for its type has no child
  besides the annotation, and one without has one such child.
* `ElementDecl.Admitted`, `AttributeDecl.Admitted`, `Sequence.Admitted` and
  `Choice.Admitted` are which elements are accepted.  What is inside is judged by the rules of
  its own, so this holds at every level.

`declaration_run_iff` puts the four together.  For each kind of declaration there is a lemma
that the element has a written form where it is admitted (`ElementDecl.exists_written_iff` and
the like).
-/

namespace ElementGrammar.Xsd

variable {τ : Type} {e : Element} {as : Attributes} {cs : List Element} {name : String}

/-! ## Sources of types -/

/-- Where a type comes from: its name is an attribute and there are no children, or there is
no such attribute and the type is the only child. -/
inductive TypeSource (Gives : Element → τ → Prop) (name : String) (as : Attributes) :
    (cs : List Element) → (typeName : Option String) → (type : Option τ) → Prop where
  | named {typeName : String} (attr : as.value? "type" = some typeName) :
    TypeSource Gives name as [] (some typeName) none
  | given {c : Element} {type : τ} (attr : as.value? "type" = none) (child : c.name = name)
    (gives : Gives c type) : TypeSource Gives name as [c] none (some type)

/-- A type that has one source has this one. -/
theorem typeSource_iff {Gives : Element → τ → Prop} {typeName : Option String}
    {type : Option τ} (hone : typeName.isNone = type.isSome) :
    TypeSource Gives name as cs typeName type ↔
      as.value? "type" = typeName ∧ NamesIn [name] cs ∧
        List.Forall₂ Gives (named name cs) type.toList := by
  cases type with
  | none =>
    obtain ⟨w, rfl⟩ := Option.isSome_iff_exists.mp (Option.isNone_eq_false_iff.mp hone)
    constructor
    · intro h
      cases h with
      | named attr => exact ⟨attr, fun _ hc => absurd hc List.not_mem_nil, .nil⟩
    · intro h
      obtain ⟨hattr, hnames, hall⟩ := h
      have hnil : cs = [] := hnames.named_eq_self.symm.trans (List.forall₂_nil_right_iff.mp hall)
      subst hnil
      exact .named hattr
  | some t =>
    obtain rfl := Option.isNone_iff_eq_none.mp hone
    constructor
    · intro h
      cases h with
      | given attr child gives =>
        exact ⟨attr, namesIn_forall₂_singleton_iff.mpr ⟨_, rfl, child, gives⟩⟩
    · intro h
      obtain ⟨hattr, hrest⟩ := h
      obtain ⟨c, rfl, hname, hgives⟩ := namesIn_forall₂_singleton_iff.mp hrest
      exact .given hattr hname hgives

/-- The same among children with annotations, where `Written` says which of them give a
type. -/
theorem typeSource_others_iff {Gives Written : Element → τ → Prop} {typeName : Option String}
    {type : Option τ} (hgives : ∀ c t, Gives c t ↔ Written c t) (hname : name ≠ "annotation")
    (hone : typeName.isNone = type.isSome) :
    TypeSource Gives name as (others "annotation" cs) typeName type ↔
      as.value? "type" = typeName ∧ NamesIn [name, "annotation"] cs ∧
        List.Forall₂ Written (named name cs) type.toList := by
  have hwritten : Gives = Written := funext₂ fun c t => propext (hgives c t)
  have hswap : NamesIn ["annotation", name] cs ↔ NamesIn [name, "annotation"] cs :=
    ⟨fun h => h.mono (List.Perm.swap _ _ _).subset, fun h => h.mono (List.Perm.swap _ _ _).subset⟩
  rw [hwritten, typeSource_iff hone, namesIn_others_iff, named_others hname, hswap]

/-- A source is one of a name or one of a type. -/
@[elab_as_elim]
theorem TypeSource.elim {Gives : Element → τ → Prop} {typeName : Option String}
    {type : Option τ} {P : Option String → Option τ → Prop}
    (h : TypeSource Gives name as cs typeName type) (hnamed : ∀ w, P (some w) none)
    (hgiven : ∀ t, P none (some t)) : P typeName type := by
  cases h with
  | named => exact hnamed _
  | given => exact hgiven _

/-! ## Occurrences -/

/-- The numbers of occurrences that are given are numbers, or the greatest is said to be
unbounded. -/
structure OccursValid (as : Attributes) : Prop where
  least : ∀ value, as.value? "minOccurs" = some value → ∃ n, Text.readCount value = .ok n
  greatest : ∀ value, as.value? "maxOccurs" = some value →
    value = "unbounded" ∨ ∃ n, Text.readCount value = .ok n

theorem exists_leastOf_iff {o : Option String} :
    (∃ n, leastOf o = some n) ↔ ∀ value, o = some value → ∃ n, Text.readCount value = .ok n := by
  cases o with
  | none => simp [leastOf]
  | some value => cases hcount : Text.readCount value <;> simp [leastOf, hcount, Except.toOption]

theorem exists_greatestOf_iff {o : Option String} :
    (∃ n, greatestOf o = some n) ↔
      ∀ value, o = some value → value = "unbounded" ∨ ∃ n, Text.readCount value = .ok n := by
  cases o with
  | none => simp [greatestOf]
  | some value =>
    by_cases hvalue : value = "unbounded"
    · simp [greatestOf, hvalue]
    · cases hcount : Text.readCount value <;> simp [greatestOf, hvalue, hcount, Except.toOption]

theorem exists_occurs_iff : (∃ o : Occurs, o.Written as) ↔ OccursValid as := by
  constructor
  · intro h
    obtain ⟨o, hleast, hgreatest⟩ := h
    exact ⟨exists_leastOf_iff.mp ⟨_, hleast⟩, exists_greatestOf_iff.mp ⟨_, hgreatest⟩⟩
  · intro h
    obtain ⟨least, hleast⟩ := exists_leastOf_iff.mpr h.least
    obtain ⟨greatest, hgreatest⟩ := exists_greatestOf_iff.mpr h.greatest
    exact ⟨⟨least, greatest⟩, hleast, hgreatest⟩

/-! ## Elements -/

namespace ElementDecl

/-- The type of an element comes from its attributes, or from its children less the
annotation. -/
def Source (tracing : Tracing) (e : Element) : Option String → Option ComplexType → Prop :=
  TypeSource (fun c t => (ComplexType.rule .declared).verdict tracing c = .ok t) "complexType"
    e.attrs (others "annotation" e.children)

/-- Everything in the element may be there. -/
structure Admitted (tracing : Tracing) (e : Element) : Prop where
  name : e.name = "element"
  text : e.text = none
  attrs : ∀ a ∈ e.attrs,
    a.name ∈ ["final", "fixed", "nillable", "type", "name", "minOccurs", "maxOccurs"]
  nillable : ∀ value, e.attrs.value? "nillable" = some value → value = "false"
  occurs : OccursValid e.attrs
  annotated : Annotated e.children
  source : ∃ typeName type, Source tracing e typeName type

variable {d : ElementDecl}

theorem isNone_name?_eq (t : ElementType) : t.name?.isNone = t.given?.isSome := by
  cases t <;> rfl

theorem source_iff (tracing : Tracing) (t : ElementType) :
    Source tracing e t.name? t.given? ↔
      e.attrs.value? "type" = t.name? ∧ NamesIn ["complexType", "annotation"] e.children ∧
        List.Forall₂ (ComplexType.WrittenOver (ElementDecl.rule .declared).Reads)
          (named "complexType" e.children) t.given?.toList :=
  typeSource_others_iff (fun _ _ => verdict_complexType_iff tracing) (by decide)
    (isNone_name?_eq t)

theorem nillable_iff {o : Option String} :
    o ∈ [none, some "false"] ↔ ∀ value, o = some value → value = "false" := by
  cases o <;> simp

theorem exists_written_iff (tracing : Tracing) (hproper : e.Proper) :
    (∃ d : ElementDecl, d.WrittenOver (ElementDecl.rule .declared).Reads e) ↔
      Admitted tracing e := by
  constructor
  · intro h
    obtain ⟨d, h⟩ := h
    exact ⟨h.shape.name, h.text, h.shape.attrs.mem, nillable_iff.mp h.nillable,
      exists_occurs_iff.mp ⟨_, h.occurs⟩, exists_documents_iff.mp ⟨_, h.doc⟩, _, _,
      (source_iff tracing d.type).mpr ⟨h.typeName, h.shape.children, h.type⟩⟩
  · intro h
    obtain ⟨typeName, type, hsource⟩ := h.source
    obtain ⟨t, rfl, rfl⟩ : ∃ t : ElementType, t.name? = typeName ∧ t.given? = type :=
      hsource.elim (fun w => ⟨.named w, rfl, rfl⟩) fun t => ⟨.given t, rfl, rfl⟩
    obtain ⟨htypeName, hnames, htype⟩ := (source_iff tracing t).mp hsource
    obtain ⟨occurs, hoccurs⟩ := exists_occurs_iff.mpr h.occurs
    obtain ⟨doc, hdoc⟩ := exists_documents_iff.mpr h.annotated
    obtain ⟨_, hdistinct, _⟩ := Element.proper_iff.mp hproper
    exact ⟨⟨e.attrs.value? "name", doc, t, occurs⟩, ⟨h.name, ⟨hdistinct, h.attrs⟩, hnames⟩,
      h.text, nillable_iff.mpr h.nillable, htypeName, htype, rfl, hdoc, hoccurs⟩

end ElementDecl

/-! ## Attributes -/

namespace AttributeDecl

/-- The type of an attribute comes from its attributes, or from its children less the
annotation. -/
def Source (tracing : Tracing) (e : Element) : Option String → Option SimpleType → Prop :=
  TypeSource (fun c t => (SimpleType.rule .declared).verdict tracing c = .ok t) "simpleType"
    e.attrs (others "annotation" e.children)

/-- Everything in the element may be there, and its name is. -/
structure Admitted (tracing : Tracing) (e : Element) : Prop where
  name : e.name = "attribute"
  text : ∀ text, e.text = some text → Text.isBlankText text = true
  named : ∃ value, e.attrs.value? "name" = some value
  attrs : ∀ a ∈ e.attrs, a.name ∈ ["type", "name", "use", "default"]
  annotated : Annotated e.children
  source : ∃ typeName type, Source tracing e typeName type

theorem isNone_name?_eq (t : AttributeType) : t.name?.isNone = t.given?.isSome := by
  cases t <;> rfl

theorem source_iff (tracing : Tracing) (t : AttributeType) :
    Source tracing e t.name? t.given? ↔
      e.attrs.value? "type" = t.name? ∧ NamesIn ["simpleType", "annotation"] e.children ∧
        List.Forall₂ SimpleType.Written (ElementGrammar.named "simpleType" e.children)
          t.given?.toList :=
  typeSource_others_iff (fun _ _ => verdict_simpleType_iff tracing) (by decide)
    (isNone_name?_eq t)

theorem blank_iff {o : Option String} :
    Text.isBlankText (o.getD "") = true ↔ ∀ text, o = some text → Text.isBlankText text = true := by
  cases o with
  | none => simp [Text.isBlankText]
  | some text => simp

theorem exists_written_iff (tracing : Tracing) (hproper : e.Proper) :
    (∃ d : AttributeDecl, d.Written e) ↔ Admitted tracing e := by
  constructor
  · intro h
    obtain ⟨d, h⟩ := h
    exact ⟨h.shape.name, blank_iff.mp h.text, ⟨_, h.name⟩, h.shape.attrs.mem,
      exists_documents_iff.mp ⟨_, h.doc⟩, _, _,
      (source_iff tracing d.type).mpr ⟨h.typeName, h.shape.children, h.type⟩⟩
  · intro h
    obtain ⟨typeName, type, hsource⟩ := h.source
    obtain ⟨t, rfl, rfl⟩ : ∃ t : AttributeType, t.name? = typeName ∧ t.given? = type :=
      hsource.elim (fun w => ⟨.named w, rfl, rfl⟩) fun t => ⟨.given t, rfl, rfl⟩
    obtain ⟨htypeName, hnames, htype⟩ := (source_iff tracing t).mp hsource
    obtain ⟨value, hvalue⟩ := h.named
    obtain ⟨doc, hdoc⟩ := exists_documents_iff.mpr h.annotated
    obtain ⟨_, hdistinct, _⟩ := Element.proper_iff.mp hproper
    exact ⟨⟨value, doc, t, e.attrs.value? "use", e.attrs.value? "default"⟩,
      ⟨h.name, ⟨hdistinct, h.attrs⟩, hnames⟩, blank_iff.mpr h.text, htypeName, htype, hvalue,
      hdoc, rfl, rfl⟩

end AttributeDecl

/-! ## Sequences and choices -/

/-- Children of which some are elements, and those are accepted. -/
structure HoldsElements (tracing : Tracing) (cs : List Element) : Prop where
  nonempty : named "element" cs ≠ []
  elements : ∀ c ∈ named "element" cs, (ElementDecl.rule .declared).Matches tracing c

theorem exists_listed_iff (tracing : Tracing) (hlength : cs.length ≤ Rule.unlimited) :
    (∃ ds, Listed (ElementDecl.rule .declared).Reads "element" cs ds ∧ ds ≠ []) ↔
      HoldsElements tracing cs := by
  have hreads : (ElementDecl.rule .declared).Reads =
      fun c d => (ElementDecl.rule .declared).verdict tracing c = .ok d :=
    funext₂ fun _ _ => propext (Rule.run_eq_ok_iff tracing blind_element).symm
  simp only [listed_iff_forall₂ hlength]
  constructor
  · intro h
    obtain ⟨ds, hall, hne⟩ := h
    refine ⟨fun hnil => hne ?_, exists_forall₂_iff.mp ⟨ds, hreads ▸ hall⟩⟩
    rw [hnil] at hall
    exact List.forall₂_nil_left_iff.mp hall
  · intro h
    obtain ⟨ds, hall⟩ := exists_forall₂_iff.mpr h.elements
    refine ⟨ds, hreads ▸ hall, fun hnil => h.nonempty ?_⟩
    rw [hnil] at hall
    exact List.forall₂_nil_right_iff.mp hall

/-- Everything in the element may be there. -/
structure Sequence.Admitted (tracing : Tracing) (e : Element) : Prop where
  name : e.name = "sequence"
  text : e.text = none
  attrs : ∀ a ∈ e.attrs, a.name ∈ ["minOccurs", "maxOccurs"]
  occurs : OccursValid e.attrs
  annotated : Annotated e.children
  children : NamesIn ["any", "annotation", "element"] e.children
  elements : HoldsElements tracing e.children

/-- Everything in the element may be there. -/
structure Choice.Admitted (tracing : Tracing) (e : Element) : Prop where
  name : e.name = "choice"
  attrs : e.attrs = []
  text : e.text = none
  children : NamesIn ["element"] e.children
  elements : HoldsElements tracing e.children

theorem Sequence.exists_written_iff (tracing : Tracing) (hproper : e.Proper)
    (hlength : e.children.length ≤ Rule.unlimited) :
    (∃ s : Sequence, s.WrittenOver (ElementDecl.rule .declared).Reads e) ↔
      Sequence.Admitted tracing e := by
  constructor
  · intro h
    obtain ⟨s, h⟩ := h
    exact ⟨h.shape.name, h.text, h.shape.attrs.mem, exists_occurs_iff.mp ⟨_, h.occurs⟩,
      exists_documents_iff.mp ⟨_, h.doc⟩, h.shape.children,
      (exists_listed_iff tracing hlength).mp ⟨_, h.elements, h.nonempty⟩⟩
  · intro h
    obtain ⟨ds, helements, hne⟩ := (exists_listed_iff tracing hlength).mpr h.elements
    obtain ⟨occurs, hoccurs⟩ := exists_occurs_iff.mpr h.occurs
    obtain ⟨doc, hdoc⟩ := exists_documents_iff.mpr h.annotated
    obtain ⟨_, hdistinct, _⟩ := Element.proper_iff.mp hproper
    exact ⟨⟨doc, occurs, ds⟩, ⟨h.name, ⟨hdistinct, h.attrs⟩, h.children⟩, h.text, hdoc, hoccurs,
      helements, hne⟩

theorem Choice.exists_written_iff (tracing : Tracing)
    (hlength : e.children.length ≤ Rule.unlimited) :
    (∃ v : Choice, v.WrittenOver (ElementDecl.rule .declared).Reads e) ↔
      Choice.Admitted tracing e := by
  constructor
  · intro h
    obtain ⟨v, h⟩ := h
    exact ⟨h.shape.name, Attributes.among_nil_iff.mp h.shape.attrs, h.text, h.shape.children,
      (exists_listed_iff tracing hlength).mp ⟨_, h.elements, h.nonempty⟩⟩
  · intro h
    obtain ⟨ds, helements, hne⟩ := (exists_listed_iff tracing hlength).mpr h.elements
    exact ⟨⟨ds⟩, ⟨h.name, Attributes.among_nil_iff.mpr h.attrs, h.children⟩, h.text, helements,
      hne⟩

/-! ## All four -/

/-- Elements and attributes are accepted where their type has exactly one source, sequences
and choices where they hold elements that are accepted, and all else in them may be there.
The type that is read is the one of the source. -/
theorem declaration_run_iff (tracing : Tracing) {e : Element} (hproper : e.Proper)
    (hwidth : e.width < Rule.unlimited) :
    ((ElementDecl.rule .declared).Matches tracing e ↔ ElementDecl.Admitted tracing e) ∧
      ((AttributeDecl.rule .declared).Matches tracing e ↔ AttributeDecl.Admitted tracing e) ∧
      ((Sequence.rule .declared).Matches tracing e ↔ Sequence.Admitted tracing e) ∧
      ((Choice.rule .declared).Matches tracing e ↔ Choice.Admitted tracing e) ∧
      (∀ d, (ElementDecl.rule .declared).verdict tracing e = .ok d →
        ElementDecl.Source tracing e d.type.name? d.type.given?) ∧
      ∀ d, (AttributeDecl.rule .declared).verdict tracing e = .ok d →
        AttributeDecl.Source tracing e d.type.name? d.type.given? := by
  have hlength : e.children.length ≤ Rule.unlimited :=
    Nat.le_trans Element.length_children_le_width (Nat.le_of_lt hwidth)
  refine ⟨?_, ?_, ?_, ?_, ?_, ?_⟩
  · rw [← ElementDecl.exists_written_iff tracing hproper]
    exact exists_congr fun _ => verdict_element_iff tracing
  · rw [← AttributeDecl.exists_written_iff tracing hproper]
    exact exists_congr fun _ => verdict_attributeDecl_iff tracing
  · rw [← Sequence.exists_written_iff tracing hproper hlength]
    exact exists_congr fun _ => verdict_sequence_iff tracing
  · rw [← Choice.exists_written_iff tracing hlength]
    exact exists_congr fun _ => verdict_choice_iff tracing
  · intro d h
    have hwritten := (verdict_element_iff tracing).mp h
    exact (ElementDecl.source_iff tracing d.type).mpr
      ⟨hwritten.typeName, hwritten.shape.children, hwritten.type⟩
  · intro d h
    have hwritten := (verdict_attributeDecl_iff tracing).mp h
    exact (AttributeDecl.source_iff tracing d.type).mpr
      ⟨hwritten.typeName, hwritten.shape.children, hwritten.type⟩

/-- An element with a type of its own, a sequence of one element among wildcards. -/
def note : Element :=
  ⟨"element", [⟨"name", "note"⟩, ⟨"maxOccurs", "unbounded"⟩],
    [⟨"complexType", [],
      [⟨"sequence", [⟨"minOccurs", "0"⟩],
        [⟨"any", [⟨"namespace", "##other"⟩], [], none⟩,
          ⟨"element", [⟨"name", "to"⟩, ⟨"type", "xs:string"⟩], [], none⟩], none⟩], none⟩], none⟩

theorem declaration_run_iff_note :
    note.Proper ∧ note.width < Rule.unlimited ∧ ElementDecl.Admitted .silent note ∧
      ∃ t, ElementDecl.Source .silent note none (some t) := by
  have hproper : note.Proper := by decide
  have hwidth : note.width < Rule.unlimited := by decide
  obtain ⟨hadmitted, _, _, _, hsource, _⟩ := declaration_run_iff .silent hproper hwidth
  have hrun : ∃ name t occurs, (ElementDecl.rule .declared).verdict .silent note =
      .ok ⟨name, "", .given t, occurs⟩ := ⟨_, _, _, rfl⟩
  obtain ⟨_, t, _, hrun⟩ := hrun
  exact ⟨hproper, hwidth, hadmitted.mp ⟨_, hrun⟩, t, hsource _ hrun⟩

end ElementGrammar.Xsd
