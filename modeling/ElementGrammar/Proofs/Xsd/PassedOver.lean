import ElementGrammar.Proofs.Tree.Inserted
import ElementGrammar.Proofs.Xsd.Alike

/-!
# What the grammar passes over

Some attributes and children say nothing to the grammar: `IgnoredAttr` and `IgnoredChild` are
those of declared elements, complex types and sequences.

* `Element.PaddedOver` is that such items are inserted at one level of an element, where the
  children that it had correspond by a relation `R`.  Values under other keys, children of
  other names, and bounds that allow for the items are the same before and after.
* `Element.Strict` is an element in which nothing is passed over, at any depth.  It corresponds
  to itself only, and what is written as an annotation, a simple type, an attribute or a group
  of these is strict.  So these forms are the same before and after (`strict_form_iff`).
-/

namespace ElementGrammar

/-- An attribute that says nothing on an element of a name. -/
inductive IgnoredAttr (name : String) (a : Attribute) : Prop where
  | element (hname : name = "element") (ha : a.name ∈ ["final", "fixed"])
  | notNillable (hname : name = "element") (ha : a = ⟨"nillable", "false"⟩)
  | complexType (hname : name = "complexType") (ha : a.name = "abstract")

/-- A child that says nothing in an element.  A wildcard for attributes is passed over only
among the members of a complex type that extends no other. -/
inductive IgnoredChild (e c : Element) : Prop where
  | sequence (he : e.name = "sequence") (hc : c.name = "any")
  | complexType (he : e.name = "complexType") (hnone : named "complexContent" e.children = [])
    (hc : c.name = "anyAttribute")

/-- What is inserted at one level of an element, which has distinct attributes then.  The
children that it had correspond by `R`. -/
structure Element.PaddedOver (R : Element → Element → Prop) (e e' : Element) : Prop where
  name : e'.name = e.name
  text : e'.text = e.text
  attrs : Inserted (IgnoredAttr e.name) e.attrs e'.attrs
  distinct : e'.attrs.Distinct
  children : ∃ cs, List.Forall₂ R e.children cs ∧ Inserted (IgnoredChild e) cs e'.children

variable {R : Element → Element → Prop} {e e' : Element} {cs cs' : List Element}

/-! ## One level -/

theorem IgnoredAttr.name_mem {name : String} {a : Attribute} (h : IgnoredAttr name a) :
    a.name ∈ ["final", "fixed", "nillable", "abstract"] := by
  cases h with
  | element _ ha =>
    rcases List.mem_pair.mp ha with ha | ha <;> simp [ha]
  | notNillable _ ha => simp [ha]
  | complexType _ ha => simp [ha]

theorem IgnoredChild.name_mem {e c : Element} (h : IgnoredChild e c) :
    c.name ∈ ["any", "anyAttribute"] := by
  cases h with
  | sequence _ hc => simp [hc]
  | complexType _ _ hc => simp [hc]

theorem not_ignoredAttr {name : String} (hname : name ∉ ["element", "complexType", "sequence"])
    (a : Attribute) : ¬ IgnoredAttr name a := by
  intro ha
  refine hname ?_
  cases ha <;> simp [*]

theorem not_ignoredChild {e : Element} (hname : e.name ∉ ["element", "complexType", "sequence"])
    (c : Element) : ¬ IgnoredChild e c := by
  intro hc
  refine hname ?_
  cases hc <;> simp [*]

namespace Element.PaddedOver

theorem value?_eq (h : e.PaddedOver R e') {key : String}
    (hkey : key ∉ ["final", "fixed", "nillable", "abstract"]) :
    e'.attrs.value? key = e.attrs.value? key := by
  refine h.attrs.value?_eq ?_
  intro a ha hname
  exact hkey (hname ▸ ha.name_mem)

/-- No attribute that gives the occurrences is passed over. -/
theorem occurs_iff (h : e.PaddedOver R e') {o : Xsd.Occurs} :
    o.Written e.attrs ↔ o.Written e'.attrs := by
  have hleast : e'.attrs.value? "minOccurs" = e.attrs.value? "minOccurs" :=
    h.value?_eq (by decide)
  have hgreatest : e'.attrs.value? "maxOccurs" = e.attrs.value? "maxOccurs" :=
    h.value?_eq (by decide)
  constructor
  · intro ho
    exact ⟨hleast ▸ ho.least, hgreatest ▸ ho.greatest⟩
  · intro ho
    exact ⟨hleast ▸ ho.least, hgreatest ▸ ho.greatest⟩

/-- An attribute that says that an element is not nillable is as good as none. -/
theorem nillable_iff (h : e.PaddedOver R e') :
    e.attrs.value? "nillable" ∈ [none, some "false"] ↔
      e'.attrs.value? "nillable" ∈ [none, some "false"] := by
  rcases h.attrs.value?_eq_or h.distinct with hsame | ⟨hnone, a, ha, hname, hvalue⟩
  · rw [hsame]
  · have hfalse : a.value = "false" := by
      cases ha with
      | element _ ha => simp [hname] at ha
      | notNillable _ ha => rw [ha]
      | complexType _ ha => simp [hname] at ha
    simp [hnone, hvalue, hfalse]

end Element.PaddedOver

section Corresponding

variable (hR : ∀ c c', R c c' → c.PaddedOver R c')

include hR

/-- Corresponding children of which some are kept by their names. -/
theorem forall₂_padded_filter (p : String → Bool) (h : List.Forall₂ R cs cs') :
    List.Forall₂ R (cs.filter fun c => p c.name) (cs'.filter fun c => p c.name) := by
  refine List.rel_filter ?_ h
  intro c c' hc
  show p c.name = true ↔ p c'.name = true
  rw [(hR c c' hc).name]

namespace Element.PaddedOver

/-- Children of a name that is not passed over correspond. -/
theorem named_corresponds (h : e.PaddedOver R e') (name : String)
    (hname : name ∉ ["any", "anyAttribute"]) :
    List.Forall₂ R (named name e.children) (named name e'.children) := by
  obtain ⟨cs, hinside, hinserted⟩ := h.children
  have hsame : named name e'.children = named name cs := by
    refine hinserted.named_eq ?_
    intro c hc hcname
    exact hname (hcname ▸ hc.name_mem)
  rw [hsame]
  exact forall₂_padded_filter hR (· == name) hinside

theorem namesIn_iff (h : e.PaddedOver R e') {names : List String}
    (hnames : ∀ c, IgnoredChild e c → c.name ∈ names) :
    NamesIn names e.children ↔ NamesIn names e'.children := by
  obtain ⟨cs, hinside, hinserted⟩ := h.children
  have hold : NamesIn names e.children ↔ NamesIn names cs := by
    have hforth : ∀ name, List.Forall₂ R (named name e.children) (named name cs) :=
      fun name => forall₂_padded_filter hR (· == name) hinside
    exact ⟨NamesIn.alike hforth, NamesIn.alike fun name => (hforth name).flip⟩
  exact hold.trans (hinserted.forall_mem_iff hnames).symm

theorem shape_iff (h : e.PaddedOver R e') {name : String} {keys names : List String}
    (hkeys : ∀ a, IgnoredAttr name a → a.name ∈ keys)
    (hnames : ∀ c, e.name = name → IgnoredChild e c → c.name ∈ names) :
    e.Shape name keys names ↔ e'.Shape name keys names := by
  by_cases hname : e.name = name
  · have hattrs := h.attrs.among_iff h.distinct (hname ▸ hkeys)
    have hchildren := h.namesIn_iff hR fun c => hnames c hname
    constructor
    · intro he
      exact ⟨h.name.trans he.name, hattrs.mpr he.attrs, hchildren.mp he.children⟩
    · intro he
      exact ⟨hname, hattrs.mp he.attrs, hchildren.mpr he.children⟩
  · constructor
    · intro he
      exact absurd he.name hname
    · intro he
      exact absurd (h.name.symm.trans he.name) hname

/-- Nothing is passed over in an element of another name. -/
theorem shape_iff_of_not_mem (h : e.PaddedOver R e') {name : String} {keys names : List String}
    (hname : name ∉ ["element", "complexType", "sequence"]) :
    e.Shape name keys names ↔ e'.Shape name keys names := by
  refine h.shape_iff hR ?_ ?_
  · intro a ha
    exact absurd ha (not_ignoredAttr hname a)
  · intro c hc hignored
    exact absurd hignored (not_ignoredChild (hc ▸ hname) c)

end Element.PaddedOver

end Corresponding

/-! ## Elements in which nothing is passed over -/

/-- An element that is no element declaration, complex type or sequence, and has none of these
inside, at any depth. -/
inductive Element.Strict : Element → Prop where
  | intro {e : Element} (name : e.name ∉ ["element", "complexType", "sequence"])
    (inside : ∀ c ∈ e.children, Strict c) : Strict e

section Unchanged

variable {α : Type} {Form : Element → α → Prop} {v : α}

/-- An element of another name has what it had, where its children are what they were. -/
theorem Element.PaddedOver.eq_of_children (h : e.PaddedOver R e')
    (hname : e.name ∉ ["element", "complexType", "sequence"])
    (hcs : List.Forall₂ R e.children e'.children → e'.children = e.children) : e' = e := by
  obtain ⟨cs, hinside, hinserted⟩ := h.children
  have hattrs : e'.attrs = e.attrs := h.attrs.eq_of_forall_not (not_ignoredAttr hname)
  have hchildren : e'.children = e.children := by
    refine hcs ?_
    rw [hinserted.eq_of_forall_not (not_ignoredChild hname)]
    exact hinside
  obtain ⟨name, attrs, children, text⟩ := e
  obtain ⟨name', attrs', children', text'⟩ := e'
  rw [Element.mk.injEq]
  exact ⟨h.name, hattrs, hchildren, h.text⟩

variable (hR : ∀ c c', R c c' → c.PaddedOver R c')

include hR

theorem Element.Strict.eq_of_left (he : e.Strict) (h : R e e') : e' = e := by
  induction he generalizing e' with
  | @intro e name _ ih =>
    refine (hR _ _ h).eq_of_children name ?_
    intro hchildren
    have hpairs := (List.forall₂_and_left _ _).mpr ⟨ih, hchildren⟩
    have hsame : List.Forall₂ Eq e'.children e.children :=
      (hpairs.imp fun c c' hc => hc.1 hc.2).flip
    rwa [List.forall₂_eq_eq_eq] at hsame

theorem Element.Strict.eq_of_right (he : e'.Strict) (h : R e e') : e' = e := by
  induction he generalizing e with
  | @intro e' name _ ih =>
    have hpad := hR _ _ h
    refine hpad.eq_of_children (hpad.name ▸ name) ?_
    intro hchildren
    have hpairs := (List.forall₂_and_left _ _).mpr ⟨ih, hchildren.flip⟩
    have hsame : List.Forall₂ Eq e'.children e.children :=
      hpairs.imp fun c' c hc => hc.1 hc.2
    rwa [List.forall₂_eq_eq_eq] at hsame

/-- A form in which nothing is passed over is the same before and after. -/
theorem strict_form_iff (hform : ∀ c v, Form c v → c.Strict) (h : R e e') :
    Form e v ↔ Form e' v := by
  constructor
  · intro he
    rw [(hform e v he).eq_of_left hR h]
    exact he
  · intro he
    rw [← (hform e' v he).eq_of_right hR h]
    exact he

end Unchanged

/-- An element of a shape is strict where its children of each name are. -/
theorem Element.Shape.strict {name : String} {keys names : List String}
    (h : e.Shape name keys names) (hname : name ∉ ["element", "complexType", "sequence"])
    (hcs : ∀ other ∈ names, ∀ c ∈ named other e.children, c.Strict) : e.Strict := by
  refine .intro (h.name ▸ hname) ?_
  intro c hc
  exact hcs c.name (h.children c hc) c (mem_named.mpr ⟨hc, rfl⟩)

/-- Elements that are written forms are strict where the form is. -/
theorem strict_of_forall₂ {α : Type} {Form : Element → α → Prop} {vs : List α}
    (hform : ∀ c v, Form c v → c.Strict) (h : List.Forall₂ Form cs vs) : ∀ c ∈ cs, c.Strict := by
  induction h with
  | nil => exact fun _ hc => absurd hc List.not_mem_nil
  | cons hc _ ih => exact List.forall_mem_cons.mpr ⟨hform _ _ hc, ih⟩

namespace Xsd

/-! ### Annotations, simple types and attributes -/

theorem Leaf.strict {name key value : String} (h : Leaf name key e value)
    (hname : name ∉ ["element", "complexType", "sequence"]) : e.Strict :=
  h.shape.strict hname fun _ hother => absurd hother List.not_mem_nil

theorem Documentation.Written.strict {doc : String} (h : Documentation.Written e doc) :
    e.Strict :=
  h.shape.strict (by decide) fun _ hother => absurd hother List.not_mem_nil

theorem Annotation.Written.strict {doc : String} (h : Annotation.Written e doc) : e.Strict := by
  refine h.shape.strict (by decide) ?_
  intro other hother
  rw [List.mem_singleton.mp hother]
  exact strict_of_forall₂ (fun _ _ hc => hc.strict) h.documentation

theorem Documents.strict {doc : String} (h : Documents cs doc) :
    ∀ c ∈ named "annotation" cs, c.Strict := by
  obtain ⟨_, hall, _⟩ := h
  exact strict_of_forall₂ (fun _ _ hc => hc.strict) hall

theorem Facet.strict {name : String} {n : Nat} (h : Facet name e n)
    (hname : name ∉ ["element", "complexType", "sequence"]) : e.Strict := by
  obtain ⟨_, hleaf, _⟩ := h
  exact hleaf.strict hname

theorem SimpleKind.Written.strict {kind : SimpleKind} (h : SimpleKind.Written e kind) :
    e.Strict := by
  cases h with
  | length shape _ _ hleast hgreatest =>
    refine shape.strict (by decide) ?_
    intro other hother
    rcases List.mem_pair.mp hother with rfl | rfl
    · exact strict_of_forall₂ (fun _ _ hc => hc.strict (by decide)) hleast
    · exact strict_of_forall₂ (fun _ _ hc => hc.strict (by decide)) hgreatest
  | enumeration shape _ _ hvalues =>
    refine shape.strict (by decide) ?_
    intro other hother
    rw [List.mem_singleton.mp hother]
    exact strict_of_forall₂ (fun _ _ hc => hc.strict (by decide)) hvalues.forms
  | list leaf => exact leaf.strict (by decide)
  | union leaf => exact leaf.strict (by decide)
  | unrestricted leaf => exact leaf.strict (by decide)

theorem SimpleType.Written.strict {t : SimpleType} (h : SimpleType.Written e t) : e.Strict := by
  refine h.shape.strict (by decide) ?_
  intro other hother
  rcases List.mem_pair.mp hother with rfl | rfl
  · exact h.doc.strict
  · exact strict_of_forall₂ (fun _ _ hc => hc.strict) h.kind

theorem AttributeDecl.Written.strict {d : AttributeDecl} (h : AttributeDecl.Written e d) :
    e.Strict := by
  refine h.shape.strict (by decide) ?_
  intro other hother
  rcases List.mem_pair.mp hother with rfl | rfl
  · exact strict_of_forall₂ (fun _ _ hc => hc.strict) h.type
  · exact h.doc.strict

theorem AttributeGroup.Written.strict {g : AttributeGroup} (h : AttributeGroup.Written e g) :
    e.Strict := by
  refine h.shape.strict (by decide) ?_
  intro other hother
  rw [List.mem_singleton.mp hother]
  exact strict_of_forall₂ (fun _ _ hc => hc.strict) h.attributes.forms

end Xsd

end ElementGrammar
