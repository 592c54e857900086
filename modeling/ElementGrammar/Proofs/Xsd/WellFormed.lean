import ElementGrammar.Proofs.Text.Blank
import ElementGrammar.Proofs.Text.Count
import ElementGrammar.Proofs.Xsd.Alike
import ElementGrammar.Proofs.Xsd.Levels

/-!
# Well-formed declarations

Which values the rules of the grammar can give.

* Texts of documentation have nothing to trim (`Trimmed`), numbers fit in 32 bits
  (`Occurs.Fits`), members of a union are words, and lists that need a member have one.
  `Schema.WellFormed` asks this at every level; names, references and defaults may be any text.
* There is one lemma for each written form: `SimpleKind.Written.wellFormed` and so on.  Those
  of elements are given that the elements inside are well-formed, and
  `ElementDecl.wellFormed_of_reads` discharges this along the tree.
-/

namespace ElementGrammar.Xsd

/-! ## Well-formed values -/

/-- A text that is its own trim. -/
def Trimmed (doc : String) : Prop :=
  Text.trim doc = doc

/-- The numbers fit in 32 bits. -/
structure Occurs.Fits (o : Occurs) : Prop where
  least : o.least ≤ Text.greatestCount
  greatest : ∀ n ∈ o.greatest, n ≤ Text.greatestCount

inductive SimpleKind.WellFormed : SimpleKind → Prop where
  | length {base : String} {least greatest : Option Nat}
    (hleast : ∀ n ∈ least, n ≤ Text.greatestCount)
    (hgreatest : ∀ n ∈ greatest, n ≤ Text.greatestCount)
    (bounded : ¬(least = none ∧ greatest = none)) : WellFormed (.length base least greatest)
  | enumeration {base : String} {values : List String} (nonempty : values ≠ []) :
    WellFormed (.enumeration base values)
  | list (itemType : String) : WellFormed (.list itemType)
  | union {memberTypes : List String} (words : ∀ w ∈ memberTypes, Text.IsWord w) :
    WellFormed (.union memberTypes)
  | unrestricted (base : String) : WellFormed (.alias base)

structure SimpleType.WellFormed (t : SimpleType) : Prop where
  doc : Trimmed t.doc
  kind : t.kind.WellFormed

inductive AttributeType.WellFormed : AttributeType → Prop where
  | named (name : String) : WellFormed (.named name)
  | given {t : SimpleType} (type : t.WellFormed) : WellFormed (.given t)

structure AttributeDecl.WellFormed (d : AttributeDecl) : Prop where
  doc : Trimmed d.doc
  type : d.type.WellFormed

structure AttributeGroup.WellFormed (g : AttributeGroup) : Prop where
  attributes : ∀ d ∈ g.attributes, d.WellFormed
  nonempty : g.attributes ≠ []

mutual

inductive ElementDecl.WellFormed : ElementDecl → Prop where
  | intro {d : ElementDecl} (doc : Trimmed d.doc) (type : ElementType.WellFormed d.type)
    (occurs : d.occurs.Fits) : ElementDecl.WellFormed d

inductive ElementType.WellFormed : ElementType → Prop where
  | named (name : String) : ElementType.WellFormed (.named name)
  | given {t : ComplexType} (type : ComplexType.WellFormed t) : ElementType.WellFormed (.given t)

inductive ComplexType.WellFormed : ComplexType → Prop where
  | intro {t : ComplexType} (doc : Trimmed t.doc)
    (attributes : ∀ d ∈ t.attributes, AttributeDecl.WellFormed d)
    (content : Content.WellFormed t.content) : ComplexType.WellFormed t

inductive Content.WellFormed : Content → Prop where
  | sequence {s : Sequence} (inside : Sequence.WellFormed s) : Content.WellFormed (.sequence s)
  | choice {c : Choice} (inside : Choice.WellFormed c) : Content.WellFormed (.choice c)
  | none : Content.WellFormed .none

inductive Sequence.WellFormed : Sequence → Prop where
  | intro {s : Sequence} (doc : Trimmed s.doc) (occurs : s.occurs.Fits)
    (elements : ∀ d ∈ s.elements, ElementDecl.WellFormed d) (nonempty : s.elements ≠ []) :
    Sequence.WellFormed s

inductive Choice.WellFormed : Choice → Prop where
  | intro {c : Choice} (elements : ∀ d ∈ c.elements, ElementDecl.WellFormed d)
    (nonempty : c.elements ≠ []) : Choice.WellFormed c

end

theorem ElementDecl.WellFormed.type {d : ElementDecl} (h : d.WellFormed) : d.type.WellFormed := by
  cases h
  assumption

theorem ComplexType.WellFormed.content {t : ComplexType} (h : t.WellFormed) :
    t.content.WellFormed := by
  cases h
  assumption

inductive SchemaItem.WellFormed : SchemaItem → Prop where
  | element {d : ElementDecl} (inside : d.WellFormed) : WellFormed (.element d)
  | complexType {t : ComplexType} (inside : t.WellFormed) : WellFormed (.complexType t)
  | simpleType {t : SimpleType} (inside : t.WellFormed) : WellFormed (.simpleType t)
  | attributeGroup {g : AttributeGroup} (inside : g.WellFormed) : WellFormed (.attributeGroup g)

structure Schema.WellFormed (s : Schema) : Prop where
  doc : Trimmed s.doc
  items : ∀ item ∈ s.items, item.WellFormed

/-! ## What is written is well-formed -/

variable {α : Type} {e : Element} {cs : List Element}

/-- Values of written forms are as all of these are. -/
theorem forall_of_forall₂ {Form : Element → α → Prop} {P : α → Prop} {vs : List α}
    (h : List.Forall₂ Form cs vs) (hform : ∀ c v, Form c v → P v) : ∀ v ∈ vs, P v := by
  induction h with
  | nil => exact fun _ hv => absurd hv List.not_mem_nil
  | cons hc _ ih => exact List.forall_mem_cons.mpr ⟨hform _ _ hc, ih⟩

theorem trimmed_empty : Trimmed "" :=
  rfl

theorem Annotation.Written.trimmed {doc : String} (h : Annotation.Written e doc) :
    Trimmed doc := by
  obtain ⟨_, _, hdoc⟩ := forall₂_singleton_right_iff.mp h.documentation
  rw [Trimmed, hdoc.doc, Text.trim_trim]

theorem Documents.trimmed {doc : String} (h : Documents cs doc) : Trimmed doc := by
  obtain ⟨o, hall, rfl⟩ := h
  cases o with
  | none => exact trimmed_empty
  | some doc =>
    obtain ⟨_, _, hdoc⟩ := forall₂_singleton_right_iff.mp hall
    exact hdoc.trimmed

theorem FirstDocumented.trimmed {doc : String} (h : FirstDocumented cs doc) : Trimmed doc := by
  induction h with
  | none => exact trimmed_empty
  | here h => exact h.trimmed
  | later _ _ ih => exact ih

theorem readCount_toOption_le {s : String} {n : Nat} (h : (Text.readCount s).toOption = some n) :
    n ≤ Text.greatestCount := by
  cases hr : Text.readCount s with
  | error e =>
    rw [hr] at h
    cases h
  | ok m =>
    rw [hr] at h
    cases h
    exact Text.readCount_le hr

theorem Occurs.Written.fits {o : Occurs} {as : Attributes} (h : o.Written as) : o.Fits := by
  obtain ⟨least, greatest⟩ := o
  obtain ⟨hleast, hgreatest⟩ := h
  have hone : 1 ≤ Text.greatestCount := by decide
  constructor
  · cases hvalue : as.value? "minOccurs" with
    | none =>
      rw [hvalue] at hleast
      cases hleast
      exact hone
    | some value =>
      rw [hvalue] at hleast
      exact readCount_toOption_le hleast
  · intro n hn
    rw [Option.mem_def] at hn
    rw [hn] at hgreatest
    cases hvalue : as.value? "maxOccurs" with
    | none =>
      rw [hvalue] at hgreatest
      cases hgreatest
      exact hone
    | some value =>
      rw [hvalue, greatestOf] at hgreatest
      split at hgreatest
      · cases hgreatest
      · obtain ⟨m, hm, hmn⟩ := Option.map_eq_some_iff.mp hgreatest
        cases hmn
        exact readCount_toOption_le hm

theorem Facet.fits {name : String} {cs : List Element} {o : Option Nat}
    (h : List.Forall₂ (Facet name) cs o.toList) : ∀ n ∈ o, n ≤ Text.greatestCount := by
  intro n hn
  refine forall_of_forall₂ (P := (· ≤ Text.greatestCount)) h (fun _ _ hfacet => ?_) n
    (Option.mem_toList.mpr hn)
  obtain ⟨_, _, hread⟩ := hfacet
  exact Text.readCount_le hread

theorem SimpleKind.Written.wellFormed {kind : SimpleKind} (h : SimpleKind.Written e kind) :
    kind.WellFormed := by
  cases h with
  | length _ _ _ hleast hgreatest bounded =>
    exact .length (Facet.fits hleast) (Facet.fits hgreatest) bounded
  | enumeration _ _ _ _ nonempty => exact .enumeration nonempty
  | list _ => exact .list _
  | union _ => exact .union fun _ => Text.isWord_of_mem_words
  | unrestricted _ => exact .unrestricted _

theorem SimpleType.Written.wellFormed {t : SimpleType} (h : SimpleType.Written e t) :
    t.WellFormed where
  doc := h.doc.trimmed
  kind := by
    obtain ⟨_, _, hkind⟩ := forall₂_singleton_right_iff.mp h.kind
    exact hkind.wellFormed

theorem AttributeDecl.Written.wellFormed {d : AttributeDecl} (h : AttributeDecl.Written e d) :
    d.WellFormed where
  doc := h.doc.trimmed
  type := by
    have htype := h.type
    cases hd : d.type with
    | named name => exact .named name
    | given t =>
      rw [hd] at htype
      obtain ⟨_, _, ht⟩ := forall₂_singleton_right_iff.mp htype
      exact .given ht.wellFormed

theorem AttributeGroup.Written.wellFormed {g : AttributeGroup} (h : AttributeGroup.Written e g) :
    g.WellFormed where
  attributes := forall_of_forall₂ h.attributes.forms fun _ _ => (·.wellFormed)
  nonempty := h.nonempty

/-! Elements inside are taken to be well-formed. -/

section Over

variable {Inner : Element → ElementDecl → Prop} (hinner : ∀ c d, Inner c d → d.WellFormed)

include hinner

theorem Sequence.WrittenOver.wellFormed {s : Sequence} (h : s.WrittenOver Inner e) :
    s.WellFormed :=
  .intro h.doc.trimmed h.occurs.fits (forall_of_forall₂ h.elements.forms hinner) h.nonempty

theorem Choice.WrittenOver.wellFormed {c : Choice} (h : c.WrittenOver Inner e) : c.WellFormed :=
  .intro (forall_of_forall₂ h.elements.forms hinner) h.nonempty

theorem Content.WrittenOver.wellFormed {c : Content} (h : c.WrittenOver Inner cs) :
    c.WellFormed := by
  cases c with
  | sequence s =>
    obtain ⟨_, _, hs⟩ := forall₂_singleton_right_iff.mp h.sequence
    exact .sequence (hs.wellFormed hinner)
  | choice c =>
    obtain ⟨_, _, hc⟩ := forall₂_singleton_right_iff.mp h.choice
    exact .choice (hc.wellFormed hinner)
  | none => exact .none

/-- Members of a type that is documented make it well-formed. -/
theorem ComplexType.MembersOver.wellFormed {t : ComplexType} (h : t.MembersOver Inner cs)
    (hdoc : Trimmed t.doc) : t.WellFormed :=
  .intro hdoc (forall_of_forall₂ h.attributes.forms fun _ _ => (·.wellFormed))
    (h.content.wellFormed hinner)

theorem ComplexType.WrittenOver.wellFormed {t : ComplexType} (h : t.WrittenOver Inner e) :
    t.WellFormed := by
  cases h.body with
  | extension _ content =>
    obtain ⟨_, _, hcontent⟩ := forall₂_singleton_right_iff.mp content
    obtain ⟨_, _, hextension⟩ := forall₂_singleton_right_iff.mp hcontent.extension
    exact hextension.members.wellFormed hinner h.doc.trimmed
  | own _ _ members => exact members.wellFormed hinner h.doc.trimmed

theorem ElementDecl.WrittenOver.wellFormed {d : ElementDecl} (h : d.WrittenOver Inner e) :
    d.WellFormed := by
  refine .intro h.doc.trimmed ?_ h.occurs.fits
  have htype := h.type
  cases hd : d.type with
  | named name => exact .named name
  | given t =>
    rw [hd] at htype
    obtain ⟨_, _, ht⟩ := forall₂_singleton_right_iff.mp htype
    exact .given (ht.wellFormed hinner)

theorem SchemaItem.WrittenOver.wellFormed {item : SchemaItem} (h : item.WrittenOver Inner e) :
    item.WellFormed := by
  cases item with
  | element d => exact .element (hinner _ _ h)
  | complexType t => exact .complexType (ComplexType.WrittenOver.wellFormed hinner h)
  | simpleType t => exact .simpleType (SimpleType.Written.wellFormed h)
  | attributeGroup g => exact .attributeGroup (AttributeGroup.Written.wellFormed h)

theorem Schema.WrittenOver.wellFormed {s : Schema} (h : s.WrittenOver Inner e) : s.WellFormed where
  doc := h.doc.trimmed
  items := forall_of_forall₂ h.items fun _ _ hitem => SchemaItem.WrittenOver.wellFormed hinner hitem

end Over

/-- Elements that are read are well-formed. -/
theorem ElementDecl.wellFormed_of_reads {a : Arrangement} (ha : a.IsPermutation) {d : ElementDecl}
    (h : (ElementDecl.rule a).Reads e d) : d.WellFormed := by
  have hsame : ∀ c c' : Element, c = c' → c.AlikeOver Eq c' := by
    rintro c _ rfl
    exact .refl c
  have hform : ∀ (c : Element) (d : ElementDecl),
      d.WrittenOver (fun _ d => d.WellFormed) c → d.WellFormed :=
    fun _ _ => ElementDecl.WrittenOver.wellFormed fun _ _ h => h
  exact writtenOver_transfer hsame (fun _ _ => (reads_element_iff ha).mp) hform rfl h

end ElementGrammar.Xsd
