import ElementGrammar.Proofs.Text.Blank
import ElementGrammar.Proofs.Xsd.Conditions

/-!
# The forms of a simple type

A simple type holds one element that says what its values are, and that element alone decides
on the kind.

* `SimpleKind.Form` are the forms of that element: a list, a union, and three restrictions.
  One without facets is an alias, one with bounds is a bound on the length, and one with
  values is an enumeration.
* `SimpleType.Admitted` is which elements are accepted, and `SimpleType.ValueOf` what they
  give.

An element has one form at most (`SimpleKind.Form.unique`), so there is nothing that the order
of the alternatives could decide.  `SimpleType.run_classified_iff` is the result for elements
with distinct attributes and not too many children.  It goes through the written forms:
`SimpleKind.written_iff_form` translates the element inside, `SimpleType.written_iff_valueOf`
the whole.
-/

namespace ElementGrammar.Xsd

/-! ## Conditions -/

/-- A restriction of a type, whatever its facets. -/
structure Restricts (d : Element) (base : String) : Prop where
  name : d.name = "restriction"
  attrs : d.attrs = [⟨"base", base⟩]
  text : d.text = none

/-- A facet that gives a number and nothing else. -/
def Bounds (c : Element) (n : Nat) : Prop :=
  ∃ value, c.OnlyAttr "value" value ∧ Text.readCount value = .ok n

/-- An element that says what the values of a simple type are. -/
inductive SimpleKind.Form (d : Element) : SimpleKind → Prop where
  | list {itemType : String} (name : d.name = "list") (item : d.OnlyAttr "itemType" itemType) :
    Form d (.list itemType)
  | union {value : String} {members : List String} (name : d.name = "union")
    (types : d.OnlyAttr "memberTypes" value)
    (pieces : Text.Pieces value.toList (members.map String.toList)) :
    Form d (.union members)
  | unrestricted {base : String} (restricts : Restricts d base) (facets : d.children = []) :
    Form d (.alias base)
  | length {base : String} {least greatest : Option Nat} (restricts : Restricts d base)
    (nonempty : d.children ≠ []) (facets : NamesIn ["minLength", "maxLength"] d.children)
    (hleast : List.Forall₂ Bounds (named "minLength" d.children) least.toList)
    (hgreatest : List.Forall₂ Bounds (named "maxLength" d.children) greatest.toList) :
    Form d (.length base least greatest)
  | enumeration {base : String} {values : List String} (restricts : Restricts d base)
    (nonempty : d.children ≠ []) (facets : NamesIn ["enumeration"] d.children)
    (hvalues : List.Forall₂ (fun c value => c.OnlyAttr "value" value) d.children values) :
    Form d (.enumeration base values)

/-- Everything in the element may be there. -/
structure SimpleType.Admitted (e : Element) : Prop where
  name : e.name = "simpleType"
  text : e.text = none
  attrs : ∀ a ∈ e.attrs, a.name = "name"
  annotated : Annotated e.children
  form : ∃ d kind, others "annotation" e.children = [d] ∧ SimpleKind.Form d kind

/-- The parts of the value of a simple type. -/
structure SimpleType.ValueOf (e : Element) (t : SimpleType) : Prop where
  name : t.name = e.attrs.value? "name"
  doc : Documents e.children t.doc
  kind : ∃ d, others "annotation" e.children = [d] ∧ SimpleKind.Form d t.kind

/-! ## The element inside -/

variable {c d e : Element} {cs : List Element} {name base : String} {n : Nat}

theorem facet_iff_bounds : Facet name c n ↔ c.name = name ∧ Bounds c n := by
  constructor
  · intro h
    obtain ⟨value, hleaf, hcount⟩ := h
    obtain ⟨hname, honly⟩ := leaf_iff_onlyAttr.mp hleaf
    exact ⟨hname, value, honly, hcount⟩
  · intro h
    obtain ⟨hname, value, honly, hcount⟩ := h
    exact ⟨value, leaf_iff_onlyAttr.mpr ⟨hname, honly⟩, hcount⟩

theorem forall₂_facet_iff {ns : List Nat} :
    List.Forall₂ (Facet name) (named name cs) ns ↔ List.Forall₂ Bounds (named name cs) ns := by
  have hfacet : Facet name = fun c n => c.name = name ∧ Bounds c n :=
    funext₂ fun _ _ => propext facet_iff_bounds
  rw [hfacet, List.forall₂_and_left]
  exact and_iff_right fun c hc => (mem_named.mp hc).2

/-- A restriction has its base and no other attribute. -/
theorem restricts_iff {names : List String} :
    d.Shape "restriction" ["base"] names ∧ d.text = none ∧ d.attrs.value? "base" = some base ↔
      Restricts d base ∧ NamesIn names d.children := by
  constructor
  · intro h
    obtain ⟨hshape, htext, hbase⟩ := h
    exact ⟨⟨hshape.name, Attributes.among_value?_iff.mp ⟨hshape.attrs, hbase⟩, htext⟩,
      hshape.children⟩
  · intro h
    obtain ⟨hrestricts, hnames⟩ := h
    obtain ⟨hamong, hbase⟩ := Attributes.among_value?_iff.mpr hrestricts.attrs
    exact ⟨⟨hrestricts.name, hamong, hnames⟩, hrestricts.text, hbase⟩

/-- Elements stand for an optional value where there are none only if it is missing. -/
theorem eq_nil_iff_eq_none {α : Type} {R : Element → α → Prop} {o : Option α}
    (h : List.Forall₂ R cs o.toList) : cs = [] ↔ o = none := by
  rw [← List.length_eq_zero_iff, h.length_eq, List.length_eq_zero_iff, Option.toList_eq_nil_iff]

/-- Facets of two names are there where a facet of one of them is. -/
theorem children_ne_nil_iff {least greatest : Option Nat}
    (hnames : NamesIn ["minLength", "maxLength"] cs)
    (hleast : List.Forall₂ Bounds (named "minLength" cs) least.toList)
    (hgreatest : List.Forall₂ Bounds (named "maxLength" cs) greatest.toList) :
    cs ≠ [] ↔ ¬(least = none ∧ greatest = none) := by
  rw [ne_eq, not_iff_not, ← eq_nil_iff_eq_none hleast, ← eq_nil_iff_eq_none hgreatest]
  constructor
  · intro h
    subst h
    exact ⟨named_nil _, named_nil _⟩
  · intro h
    obtain ⟨hmin, hmax⟩ := h
    refine List.eq_nil_iff_forall_not_mem.mpr fun c hc => ?_
    have hname : c.name = "minLength" ∨ c.name = "maxLength" := by simpa using hnames c hc
    rcases hname with hname | hname
    · exact List.not_mem_nil (hmin ▸ mem_named.mpr ⟨hc, hname⟩)
    · exact List.not_mem_nil (hmax ▸ mem_named.mpr ⟨hc, hname⟩)

/-- What is written of the values is one of the forms. -/
theorem SimpleKind.written_iff_form {kind : SimpleKind}
    (hlength : d.children.length ≤ Rule.unlimited) :
    SimpleKind.Written d kind ↔ SimpleKind.Form d kind := by
  constructor
  · intro h
    cases h with
    | length hshape htext hbase hleast hgreatest hbounded =>
      obtain ⟨hrestricts, hnames⟩ := restricts_iff.mp ⟨hshape, htext, hbase⟩
      rw [forall₂_facet_iff] at hleast hgreatest
      exact .length hrestricts ((children_ne_nil_iff hnames hleast hgreatest).mpr hbounded) hnames
        hleast hgreatest
    | enumeration hshape htext hbase hvalues hne =>
      obtain ⟨hrestricts, hnames⟩ := restricts_iff.mp ⟨hshape, htext, hbase⟩
      rw [listed_iff_forall₂ hlength, forall₂_leaf_iff, hnames.named_eq_self] at hvalues
      refine .enumeration hrestricts (fun hnil => hne ?_) hnames hvalues
      rw [hnil] at hvalues
      exact List.forall₂_nil_left_iff.mp hvalues
    | list hleaf =>
      obtain ⟨hname, honly⟩ := leaf_iff_onlyAttr.mp hleaf
      exact .list hname honly
    | @union value hleaf =>
      obtain ⟨hname, honly⟩ := leaf_iff_onlyAttr.mp hleaf
      exact .union hname honly (Text.words_eq_iff.mp rfl)
    | unrestricted hleaf =>
      obtain ⟨hname, honly⟩ := leaf_iff_onlyAttr.mp hleaf
      exact .unrestricted ⟨hname, honly.attrs, honly.text⟩ honly.children
  · intro h
    cases h with
    | list hname hitem => exact .list (leaf_iff_onlyAttr.mpr ⟨hname, hitem⟩)
    | union hname htypes hpieces =>
      rw [← Text.words_eq_iff.mpr hpieces]
      exact .union (leaf_iff_onlyAttr.mpr ⟨hname, htypes⟩)
    | unrestricted hrestricts hchildren =>
      have honly : d.OnlyAttr "base" _ := ⟨hrestricts.attrs, hchildren, hrestricts.text⟩
      exact .unrestricted (leaf_iff_onlyAttr.mpr ⟨hrestricts.name, honly⟩)
    | length hrestricts hne hnames hleast hgreatest =>
      obtain ⟨hshape, htext, hbase⟩ := restricts_iff.mpr ⟨hrestricts, hnames⟩
      have hbounded := (children_ne_nil_iff hnames hleast hgreatest).mp hne
      exact .length hshape htext hbase (forall₂_facet_iff.mpr hleast)
        (forall₂_facet_iff.mpr hgreatest) hbounded
    | enumeration hrestricts hne hnames hvalues =>
      obtain ⟨hshape, htext, hbase⟩ := restricts_iff.mpr ⟨hrestricts, hnames⟩
      have hlisted := hvalues
      rw [← hnames.named_eq_self, ← forall₂_leaf_iff, ← listed_iff_forall₂ hlength] at hlisted
      refine .enumeration hshape htext hbase hlisted fun hnil => hne ?_
      rw [hnil] at hvalues
      exact List.forall₂_nil_right_iff.mp hvalues

/-! ## One form at most -/

theorem Restricts.unique {base' : String} (h : Restricts d base) (h' : Restricts d base') :
    base = base' := by
  have hattrs := h.attrs
  rw [h'.attrs] at hattrs
  cases hattrs
  rfl

theorem onlyAttr_unique {key : String} :
    Relator.RightUnique fun (c : Element) value => c.OnlyAttr key value := by
  intro c value value' h h'
  have hattrs := h.attrs
  rw [h'.attrs] at hattrs
  cases hattrs
  rfl

theorem bounds_unique : Relator.RightUnique Bounds := by
  intro c n n' h h'
  obtain ⟨value, honly, hcount⟩ := h
  obtain ⟨value', honly', hcount'⟩ := h'
  rw [← onlyAttr_unique honly honly', hcount, Except.ok.injEq] at hcount'
  exact hcount'

/-- Elements give one optional value at most. -/
theorem option_unique {o o' : Option Nat} (h : List.Forall₂ Bounds cs o.toList)
    (h' : List.Forall₂ Bounds cs o'.toList) : o = o' := by
  have hlist : o.toList = o'.toList := bounds_unique.forall₂ h h'
  ext n
  rw [← Option.mem_toList, hlist, Option.mem_toList]

/-- Facets are no bounds and values at once, where there are any. -/
theorem not_namesIn_of_namesIn (hne : cs ≠ []) (h : NamesIn ["minLength", "maxLength"] cs) :
    ¬ NamesIn ["enumeration"] cs := by
  intro h'
  obtain ⟨c, hc⟩ := List.exists_mem_of_ne_nil cs hne
  have hname := h c hc
  rw [List.mem_singleton.mp (h' c hc)] at hname
  exact absurd hname (by decide)

theorem SimpleKind.Form.element_eq {kind : SimpleKind} (h : SimpleKind.Form d kind) :
    d.name = kind.element := by
  cases h with
  | list name => exact name
  | union name => exact name
  | unrestricted restricts => exact restricts.name
  | length restricts => exact restricts.name
  | enumeration restricts => exact restricts.name

/-- An element is in one form at most. -/
theorem SimpleKind.Form.unique {kind kind' : SimpleKind} (h : SimpleKind.Form d kind)
    (h' : SimpleKind.Form d kind') : kind = kind' := by
  have helement : kind.element = kind'.element := h.element_eq.symm.trans h'.element_eq
  cases h with
  | list _ item =>
    cases h' with
    | list _ item' => rw [onlyAttr_unique item item']
    | _ => simp [SimpleKind.element] at helement
  | union _ types pieces =>
    cases h' with
    | union _ types' pieces' =>
      rw [← onlyAttr_unique types types', ← Text.words_eq_iff] at pieces'
      rw [← pieces', Text.words_eq_iff.mpr pieces]
    | _ => simp [SimpleKind.element] at helement
  | unrestricted restricts facets =>
    cases h' with
    | unrestricted restricts' => rw [restricts.unique restricts']
    | length _ nonempty => exact absurd facets nonempty
    | enumeration _ nonempty => exact absurd facets nonempty
    | _ => simp [SimpleKind.element] at helement
  | length restricts nonempty facets hleast hgreatest =>
    cases h' with
    | unrestricted _ facets' => exact absurd facets' nonempty
    | length restricts' _ _ hleast' hgreatest' =>
      rw [restricts.unique restricts', option_unique hleast hleast',
        option_unique hgreatest hgreatest']
    | enumeration _ _ facets' => exact absurd facets' (not_namesIn_of_namesIn nonempty facets)
    | _ => simp [SimpleKind.element] at helement
  | enumeration restricts nonempty facets hvalues =>
    cases h' with
    | unrestricted _ facets' => exact absurd facets' nonempty
    | length _ _ facets' => exact absurd facets (not_namesIn_of_namesIn nonempty facets')
    | enumeration restricts' _ _ hvalues' =>
      rw [restricts.unique restricts', onlyAttr_unique.forall₂ hvalues hvalues']
    | _ => simp [SimpleKind.element] at helement

/-! ## Simple types -/

namespace SimpleType

variable {t : SimpleType}

theorem kind_element_ne (kind : SimpleKind) : kind.element ≠ "annotation" := by
  cases kind <;> simp [SimpleKind.element]

/-- The children are written as a kind where one of them is in its form and the others are
annotations. -/
theorem kind_iff_form {kind : SimpleKind} (hlength : ∀ d ∈ cs, d.children.length ≤ Rule.unlimited) :
    NamesIn ["annotation", kind.element] cs ∧
        List.Forall₂ SimpleKind.Written (named kind.element cs) [kind] ↔
      ∃ d, others "annotation" cs = [d] ∧ SimpleKind.Form d kind := by
  rw [← namesIn_others_iff, ← named_others (kind_element_ne kind),
    namesIn_forall₂_singleton_iff]
  constructor
  · intro h
    obtain ⟨d, hd, _, hwritten⟩ := h
    have hmem : d ∈ cs := List.mem_of_mem_filter (hd ▸ List.mem_cons_self)
    exact ⟨d, hd, (SimpleKind.written_iff_form (hlength d hmem)).mp hwritten⟩
  · intro h
    obtain ⟨d, hd, hform⟩ := h
    have hmem : d ∈ cs := List.mem_of_mem_filter (hd ▸ List.mem_cons_self)
    exact ⟨d, hd, hform.element_eq, (SimpleKind.written_iff_form (hlength d hmem)).mpr hform⟩

/-- A simple type is written where the element is admitted, and has the value that the parts
of the element give. -/
theorem written_iff_valueOf (hproper : e.Proper) (hwidth : e.width ≤ Rule.unlimited) :
    SimpleType.Written e t ↔ Admitted e ∧ ValueOf e t := by
  have hlength : ∀ d ∈ e.children, d.children.length ≤ Rule.unlimited := fun d hd =>
    Nat.le_trans (Element.length_children_le_of_mem hd) hwidth
  constructor
  · intro h
    obtain ⟨d, hd, hform⟩ := (kind_iff_form hlength).mp ⟨h.shape.children, h.kind⟩
    have hannotated : Annotated e.children := exists_documents_iff.mp ⟨_, h.doc⟩
    have hattrs : ∀ a ∈ e.attrs, a.name = "name" := fun a ha =>
      List.mem_singleton.mp (h.shape.attrs.mem a ha)
    exact ⟨⟨h.shape.name, h.text, hattrs, hannotated, d, t.kind, hd, hform⟩, h.name.symm, h.doc,
      d, hd, hform⟩
  · intro h
    obtain ⟨hadmitted, hvalue⟩ := h
    obtain ⟨hnames, hkind⟩ := (kind_iff_form hlength).mpr hvalue.kind
    obtain ⟨_, hdistinct, _⟩ := Element.proper_iff.mp hproper
    have hamong : e.attrs.Among ["name"] := ⟨hdistinct, fun a ha =>
      List.mem_singleton.mpr (hadmitted.attrs a ha)⟩
    exact ⟨⟨hadmitted.name, hamong, hnames⟩, hadmitted.text, hvalue.name.symm, hvalue.doc, hkind⟩

/-- An element that is admitted has a value. -/
theorem Admitted.exists_valueOf (h : Admitted e) : ∃ t, ValueOf e t := by
  obtain ⟨doc, hdoc⟩ := exists_documents_iff.mpr h.annotated
  obtain ⟨d, kind, hd, hform⟩ := h.form
  exact ⟨⟨e.attrs.value? "name", doc, kind⟩, rfl, hdoc, d, hd, hform⟩

/-- A simple type is read where everything in the element may be there.  Its kind is the one
whose form the element inside has, and there is one such kind at most. -/
theorem run_classified_iff (tracing : Tracing) {e : Element} (hproper : e.Proper)
    (hwidth : e.width < Rule.unlimited) :
    ((∃ t, ((SimpleType.rule .declared).run tracing e).outcome = .ok t) ↔ Admitted e) ∧
      (∀ t, ((SimpleType.rule .declared).run tracing e).outcome = .ok t → ValueOf e t) ∧
      ∀ d kind kind', SimpleKind.Form d kind → SimpleKind.Form d kind' → kind = kind' := by
  have hrun : ∀ t, ((SimpleType.rule .declared).run tracing e).outcome = .ok t ↔
      Admitted e ∧ ValueOf e t := fun _ =>
    (verdict_simpleType_iff tracing).trans (written_iff_valueOf hproper (Nat.le_of_lt hwidth))
  refine ⟨?_, fun t ht => ((hrun t).mp ht).2, fun _ _ _ => SimpleKind.Form.unique⟩
  constructor
  · intro h
    obtain ⟨t, ht⟩ := h
    exact ((hrun t).mp ht).1
  · intro h
    obtain ⟨t, ht⟩ := h.exists_valueOf
    exact ⟨t, (hrun t).mpr ⟨h, ht⟩⟩

/-- A type of short lists of words, with an annotation after the restriction. -/
def shortWords : Element :=
  ⟨"simpleType", [⟨"name", "ShortWords"⟩],
    [⟨"restriction", [⟨"base", "Words"⟩],
        [⟨"maxLength", [⟨"value", "12"⟩], [], none⟩, ⟨"minLength", [⟨"value", "+1"⟩], [], none⟩],
        none⟩,
      ⟨"annotation", [], [⟨"documentation", [], [], some " A dozen at most. "⟩], none⟩], none⟩

theorem run_classified_iff_shortWords :
    shortWords.Proper ∧ shortWords.width < Rule.unlimited ∧ Admitted shortWords ∧
      ValueOf shortWords
        ⟨some "ShortWords", "A dozen at most.", .length "Words" (some 1) (some 12)⟩ := by
  have hproper : shortWords.Proper := by decide
  have hwidth : shortWords.width < Rule.unlimited := by decide
  obtain ⟨hiff, hvalue, _⟩ := run_classified_iff .silent hproper hwidth
  have hrun : ((SimpleType.rule .declared).run .silent shortWords).outcome =
      .ok ⟨some "ShortWords", "A dozen at most.", .length "Words" (some 1) (some 12)⟩ := rfl
  exact ⟨hproper, hwidth, hiff.mp ⟨_, hrun⟩, hvalue _ hrun⟩

end SimpleType

end ElementGrammar.Xsd
