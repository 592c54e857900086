import ElementGrammar.Proofs.Rule.Ends
import ElementGrammar.Proofs.Xsd.Written
import ElementGrammar.Xsd.Grammar

/-!
# Reading simple types and attributes

Each rule of the grammar reads an element as a declaration where the element is a written
form of it.  Here are the rules that lead to no element inside:
`reads_annotation`, `reads_simpleType`, `reads_attributeDecl` and `reads_attributeGroup`.

The order of alternatives does not matter (`ends_arrangement_iff`).  At every place of the
grammar an alternative that takes all that it has to take is the only one to match: the
others ask for children that are not there, or for the absence of some.
-/

namespace ElementGrammar.Xsd

open Rule (Ends Named Excludes ends_bind ends_pure ends_matchName ends_attr ends_takeAttr
  ends_dropAttr ends_dropChildrenNamed reads_iff_ends)

variable {α : Type} {e : Element} {x : Rest}

/-! ## Alternatives -/

/-- Every place has its alternatives, in some order. -/
def Arrangement.IsPermutation (a : Arrangement) : Prop :=
  ∀ point, (a point).Perm (List.range point.size)

theorem Arrangement.declared_isPermutation : Arrangement.declared.IsPermutation :=
  fun _ => List.Perm.refl _

theorem filterMap_range_getElem? {γ : Type*} (items : List γ) :
    (List.range items.length).filterMap (items[·]?) = items := by
  induction items with
  | nil => rfl
  | cons item items ih =>
    rw [List.length_cons, List.range_succ_eq_map, List.filterMap_cons, List.filterMap_map]
    exact congrArg (item :: ·) ih

/-- Where each alternative that ends well is the only one to match, the place ends as one
of its alternatives does, in whatever order they are tried. -/
theorem ends_arrangement_iff {a : Arrangement} (ha : a.IsPermutation) {point : ChoicePoint}
    {rules : List (Rule α)} {P : α → Rest → Prop} (hsize : rules.length = point.size)
    (h : rules.Pairwise (Excludes x P)) :
    (a.oneOf point rules).Ends x P ↔ ∃ rule ∈ rules, rule.Ends x P := by
  refine Rule.ends_oneOf_perm_iff ?_ h
  have hperm := (ha point).filterMap (rules[·]?)
  rw [← hsize, filterMap_range_getElem?] at hperm
  exact hperm

/-- A place ends as one of its alternatives does. -/
theorem Arrangement.exists_of_ends {a : Arrangement} {point : ChoicePoint}
    {rules : List (Rule α)} {P : α → Rest → Prop} (h : (a.oneOf point rules).Ends x P) :
    ∃ rule ∈ rules, rule.Ends x P := by
  obtain ⟨rule, hmem, hends⟩ := h.exists_of_oneOf
  obtain ⟨i, _, hi⟩ := List.mem_filterMap.mp hmem
  exact ⟨rule, List.mem_of_getElem? hi, hends⟩

/-! ## What is left in the end -/

/-- Where nothing is left no child of any name is. -/
theorem named_of_isDrained (h : x.isDrained = true) (name : String) :
    named name x.children = [] := by
  rw [namesIn_nil_iff.mp (x.isDrained_iff.mp h).2.1, named_nil]

theorem children_of_isDrained (h : x.isDrained = true) : x.children = [] :=
  namesIn_nil_iff.mp (x.isDrained_iff.mp h).2.1

theorem listed_iff {Form : Element → α → Prop} {name : String} {cs : List Element}
    {vs : List α} :
    Listed Form name cs vs ↔
      List.Forall₂ Form (named name cs) vs ∧ vs.length ≤ Rule.unlimited :=
  ⟨fun h => ⟨h.forms, h.length⟩, fun h => ⟨h.1, h.2⟩⟩

theorem listed_others {Form : Element → α → Prop} {name other : String} {cs : List Element}
    {vs : List α} (h : other ≠ name) :
    Listed Form other (others name cs) vs ↔ Listed Form other cs vs := by
  rw [listed_iff, listed_iff, named_others h]

/-- A rule that only has to read some children of one name takes all of these. -/
theorem ends_children_drained_iff {rule : Rule α} {name : String} [Named rule name]
    {Q : List α → Prop} :
    (Rule.children rule).Ends x (fun vs y => Q vs ∧ y.isDrained = true) ↔
      ∃ vs, Listed rule.Reads name x.children vs ∧ vs ≠ [] ∧ Q vs ∧
        (x.dropNamed name).isDrained = true := by
  rw [Rule.ends_children_iff fun _ _ h => named_of_isDrained h.2 _]
  simp only [listed_iff, and_assoc]

/-- The same for one child. -/
theorem ends_child_drained_iff {rule : Rule α} {name : String} [Named rule name]
    {Q : α → Prop} :
    (Rule.child rule).Ends x (fun v y => Q v ∧ y.isDrained = true) ↔
      ∃ v, List.Forall₂ rule.Reads (named name x.children) [v] ∧ Q v ∧
        (x.dropNamed name).isDrained = true :=
  Rule.ends_child_iff fun _ _ h => named_of_isDrained h.2 _

/-! ## Leaves -/

theorem leaf_iff {name key value : String} :
    e.name = name ∧ e.attrs.value? key = some value ∧
        ((Rest.ofElement e).dropAttr key).isDrained = true ↔ Leaf name key e value := by
  simp only [Rest.isDrained_iff, Rest.attrs_dropAttr, Rest.attrs_ofElement,
    Attributes.among_without_iff List.not_mem_nil, Rest.children_dropAttr,
    Rest.children_ofElement, Rest.text_dropAttr, Rest.text_ofElement]
  constructor
  · rintro ⟨hname, hvalue, hattrs, hchildren, htext⟩
    exact ⟨⟨hname, hattrs, hchildren⟩, htext, hvalue⟩
  · rintro ⟨⟨hname, hattrs, hchildren⟩, htext, hvalue⟩
    exact ⟨hname, hvalue, hattrs, hchildren, htext⟩

theorem reads_leaf (name key : String) :
    (Rule.matchName name >>= fun _ => Rule.attr key).Reads = Leaf name key := by
  funext e value
  simp [reads_iff_ends, ← leaf_iff]

/-- A leaf whose value is read as something else. -/
theorem reads_leafMap_iff {name key : String} {f : String → α} {v : α} :
    (Rule.matchName name >>= fun _ => Rule.attr key >>= fun w => pure (f w)).Reads e v ↔
      ∃ w, Leaf name key e w ∧ f w = v := by
  simp only [reads_iff_ends, ends_bind, ends_matchName, ends_attr, ends_pure, ← leaf_iff]
  constructor
  · rintro ⟨hname, w, hvalue, rfl, hdrained⟩
    exact ⟨w, ⟨hname, hvalue, hdrained⟩, rfl⟩
  · rintro ⟨w, ⟨hname, hvalue, hdrained⟩, rfl⟩
    exact ⟨hname, w, hvalue, rfl, hdrained⟩

theorem reads_attributeGroupRef : attributeGroupRef.Reads = Leaf "attributeGroup" "ref" :=
  reads_leaf _ _

theorem reads_enumerationValue : enumerationValue.Reads = Leaf "enumeration" "value" :=
  reads_leaf _ _

theorem reads_facet (name : String) : (facet name).Reads = Facet name := by
  funext e n
  simp only [reads_iff_ends, facet, Facet, ends_bind, ends_matchName, Rule.ends_attrRead,
    ← leaf_iff]
  refine propext ⟨?_, ?_⟩
  · rintro ⟨hname, w, hvalue, _, hn, rfl, hdrained⟩
    exact ⟨w, ⟨hname, hvalue, hdrained⟩, hn⟩
  · rintro ⟨w, ⟨hname, hvalue, hdrained⟩, hn⟩
    exact ⟨hname, w, hvalue, n, hn, rfl, hdrained⟩

/-! ## Annotations and occurrences -/

/-- The documentation inside an annotation. -/
def documentationText : Rule String := do
  Rule.matchName "documentation"
  return Text.trim (← Rule.text)

instance : Named documentationText "documentation" := Rule.named_bind _

instance : Named annotation "annotation" := Rule.named_bind _

theorem reads_documentationText : documentationText.Reads = Documentation.Written := by
  funext e doc
  simp only [reads_iff_ends, documentationText, ends_bind, ends_matchName, Rule.ends_text,
    ends_pure, Rest.isDrained_iff]
  refine propext ⟨?_, ?_⟩
  · rintro ⟨hname, hdoc, hattrs, hchildren, -⟩
    exact ⟨⟨hname, hattrs, hchildren⟩, hdoc.symm⟩
  · rintro ⟨⟨hname, hattrs, hchildren⟩, hdoc⟩
    exact ⟨hname, hdoc.symm, hattrs, hchildren, rfl⟩

theorem reads_annotation : annotation.Reads = Annotation.Written := by
  funext e doc
  have hrule : annotation =
      Rule.matchName "annotation" >>= fun _ => Rule.child documentationText := rfl
  rw [reads_iff_ends, hrule, ends_bind, ends_matchName, ends_child_drained_iff,
    reads_documentationText]
  simp only [Rest.isDrained_iff, Rest.attrs_dropNamed, Rest.children_dropNamed,
    Rest.text_dropNamed, namesIn_others_iff]
  refine propext ⟨?_, ?_⟩
  · rintro ⟨hname, _, hall, rfl, hattrs, hchildren, htext⟩
    exact ⟨⟨hname, hattrs, hchildren⟩, htext, hall⟩
  · rintro ⟨⟨hname, hattrs, hchildren⟩, htext, hall⟩
    exact ⟨hname, doc, hall, rfl, hattrs, hchildren, htext⟩

theorem documents_others {name doc : String} {cs : List Element} (h : "annotation" ≠ name) :
    Documents (others name cs) doc ↔ Documents cs doc := by
  unfold Documents
  rw [named_others h]

/-- Where no annotation may be left there is one at most, which gives the
documentation. -/
theorem ends_documentation_iff {P : String → Rest → Prop}
    (hP : ∀ doc y, P doc y → named "annotation" y.children = []) :
    documentation.Ends x P ↔
      ∃ doc, Documents x.children doc ∧ P doc (x.dropNamed "annotation") := by
  unfold documentation
  simp only [ends_bind, ends_pure]
  rw [Rule.ends_childOpt_iff fun o y h => hP _ y h, reads_annotation]
  constructor
  · rintro ⟨o, hall, h⟩
    exact ⟨o.getD "", ⟨o, hall, rfl⟩, h⟩
  · rintro ⟨_, ⟨o, hall, rfl⟩, h⟩
    exact ⟨o, hall, h⟩

theorem ends_minOccurs {P : Nat → Rest → Prop} :
    minOccurs.Ends x P ↔
      ∃ n, leastOf (x.attrs.value? "minOccurs") = some n ∧ P n (x.dropAttr "minOccurs") := by
  unfold minOccurs Rule.attrReadOpt
  simp only [ends_bind, ends_pure, ends_takeAttr]
  cases x.attrs.value? "minOccurs" with
  | none => simp [leastOf]
  | some value =>
    cases h : Text.readCount value <;> simp [leastOf, h, Except.toOption]

theorem ends_maxOccurs {P : Option Nat → Rest → Prop} :
    maxOccurs.Ends x P ↔
      ∃ n, greatestOf (x.attrs.value? "maxOccurs") = some n ∧ P n (x.dropAttr "maxOccurs") := by
  unfold maxOccurs
  rw [ends_bind, ends_takeAttr]
  cases x.attrs.value? "maxOccurs" with
  | none => simp [greatestOf]
  | some value =>
    by_cases hvalue : value = "unbounded"
    · simp [greatestOf, hvalue]
    · cases h : Text.readCount value <;> simp [greatestOf, hvalue, h, Except.toOption]

theorem ends_occurs {P : Occurs → Rest → Prop} :
    Occurs.rule.Ends x P ↔
      ∃ o : Occurs, o.Written x.attrs ∧ P o ((x.dropAttr "minOccurs").dropAttr "maxOccurs") := by
  unfold Occurs.rule
  simp only [ends_bind, ends_minOccurs, ends_maxOccurs, ends_pure, Rest.attrs_dropAttr]
  rw [Attributes.value?_without (by decide)]
  constructor
  · rintro ⟨least, hleast, greatest, hgreatest, h⟩
    exact ⟨⟨least, greatest⟩, ⟨hleast, hgreatest⟩, h⟩
  · rintro ⟨⟨least, greatest⟩, ⟨hleast, hgreatest⟩, h⟩
    exact ⟨least, hleast, greatest, hgreatest, h⟩

/-! ## Simple types -/

instance (name : String) : Named (facet name) name := Rule.named_bind _

instance : Named enumerationValue "enumeration" := Rule.named_bind _

instance (a : Arrangement) : Named (restriction a) "restriction" := Rule.named_bind _

instance : Named listType "list" := Rule.named_bind _

instance : Named unionType "union" := Rule.named_bind _

instance : Named aliasType "restriction" := Rule.named_bind _

theorem ends_lengthFacets_iff {base : String} {kind : SimpleKind} :
    (lengthFacets base).Ends x (fun k y => k = kind ∧ y.isDrained = true) ↔
      ∃ least greatest, kind = .length base least greatest ∧
        List.Forall₂ (Facet "minLength") (named "minLength" x.children) least.toList ∧
        List.Forall₂ (Facet "maxLength") (named "maxLength" x.children) greatest.toList ∧
        ¬(least = none ∧ greatest = none) ∧
        ((x.dropNamed "minLength").dropNamed "maxLength").isDrained = true := by
  have hlast : ∀ (least greatest : Option Nat) (y : Rest),
      (if (least.isNone && greatest.isNone) = true then
          Rule.fail "No length restriction given"
        else pure (.length base least greatest) : Rule SimpleKind).Ends y
          (fun k y => k = kind ∧ y.isDrained = true) ↔
        ¬(least = none ∧ greatest = none) ∧ .length base least greatest = kind ∧
          y.isDrained = true := by
    intro least greatest y
    cases least <;> cases greatest <;> simp
  unfold lengthFacets
  simp only [ends_bind, hlast]
  have hsecond : ∀ (least : Option Nat) (y : Rest),
      (Rule.childOpt (facet "maxLength")).Ends y (fun greatest y =>
          ¬(least = none ∧ greatest = none) ∧ .length base least greatest = kind ∧
            y.isDrained = true) ↔
        ∃ greatest : Option Nat,
          List.Forall₂ (Facet "maxLength") (named "maxLength" y.children) greatest.toList ∧
            ¬(least = none ∧ greatest = none) ∧ .length base least greatest = kind ∧
            (y.dropNamed "maxLength").isDrained = true := by
    intro least y
    rw [Rule.ends_childOpt_iff fun _ _ h => named_of_isDrained h.2.2 _, reads_facet]
  simp only [hsecond]
  rw [Rule.ends_childOpt_iff, reads_facet]
  · simp only [Rest.children_dropNamed]
    rw [named_others (by decide)]
    constructor
    · rintro ⟨least, hleast, greatest, hgreatest, hbounded, rfl, hdrained⟩
      exact ⟨least, greatest, rfl, hleast, hgreatest, hbounded, hdrained⟩
    · rintro ⟨least, greatest, rfl, hleast, hgreatest, hbounded, hdrained⟩
      exact ⟨least, hleast, greatest, hgreatest, hbounded, rfl, hdrained⟩
  · rintro _ y ⟨_, _, _, _, hdrained⟩
    simpa using named_of_isDrained hdrained "minLength"

theorem ends_enumerationFacets_iff {base : String} {kind : SimpleKind} :
    (enumerationFacets base).Ends x (fun k y => k = kind ∧ y.isDrained = true) ↔
      ∃ values, kind = .enumeration base values ∧
        Listed (Leaf "enumeration" "value") "enumeration" x.children values ∧ values ≠ [] ∧
        (x.dropNamed "enumeration").isDrained = true := by
  unfold enumerationFacets
  simp only [ends_bind, ends_pure]
  rw [ends_children_drained_iff, reads_enumerationValue]
  constructor
  · rintro ⟨values, hvalues, hne, rfl, hdrained⟩
    exact ⟨values, rfl, hvalues, hne, hdrained⟩
  · rintro ⟨values, rfl, hvalues, hne, hdrained⟩
    exact ⟨values, hvalues, hne, rfl, hdrained⟩

/-- Bounds on a length and listed values do not stand beside each other. -/
theorem excludes_facets {base : String} {kind : SimpleKind} :
    Excludes x (fun k y => k = kind ∧ y.isDrained = true) (lengthFacets base)
      (enumerationFacets base) := by
  constructor
  · intro hlength henumeration
    obtain ⟨_, _, _, _, _, _, hdrained⟩ := ends_lengthFacets_iff.mp hlength
    have hnone : named "enumeration" x.children = [] := by
      simpa using named_of_isDrained hdrained "enumeration"
    exact Rule.not_ends_children_of_named_nil hnone (ends_bind.mp henumeration)
  · intro henumeration hlength
    obtain ⟨_, _, _, _, hdrained⟩ := ends_enumerationFacets_iff.mp henumeration
    have hleast : named "minLength" x.children = [] := by
      simpa using named_of_isDrained hdrained "minLength"
    have hgreatest : named "maxLength" x.children = [] := by
      simpa using named_of_isDrained hdrained "maxLength"
    unfold lengthFacets at hlength
    rw [ends_bind, Rule.ends_childOpt_of_named_nil hleast, ends_bind,
      Rule.ends_childOpt_of_named_nil hgreatest] at hlength
    simp at hlength

theorem reads_restriction_iff {a : Arrangement} (ha : a.IsPermutation) {kind : SimpleKind} :
    (restriction a).Reads e kind ↔
      e.children ≠ [] ∧ kind.element = "restriction" ∧ SimpleKind.Written e kind := by
  have hends : ∀ (base : String) (x : Rest),
      (a.oneOf .facets [lengthFacets base, enumerationFacets base]).Ends x
          (fun k y => k = kind ∧ y.isDrained = true) ↔
        (lengthFacets base).Ends x (fun k y => k = kind ∧ y.isDrained = true) ∨
          (enumerationFacets base).Ends x (fun k y => k = kind ∧ y.isDrained = true) := by
    intro base x
    rw [ends_arrangement_iff ha rfl (by simpa using excludes_facets)]
    simp
  unfold restriction
  simp only [reads_iff_ends, ends_bind, ends_matchName, ends_attr, hends,
    ends_lengthFacets_iff, ends_enumerationFacets_iff]
  simp only [Rest.isDrained_iff, Rest.element_ofElement, Rest.attrs_ofElement, Rest.attrs_dropAttr,
    Rest.attrs_dropNamed, Rest.children_dropAttr, Rest.children_dropNamed,
    Rest.children_ofElement, Rest.text_dropAttr, Rest.text_dropNamed, Rest.text_ofElement,
    Attributes.among_without_iff List.not_mem_nil, namesIn_others_iff]
  constructor
  · rintro ⟨hname, base, hbase, ⟨least, greatest, rfl, hleast, hgreatest, hbounded, hattrs,
      hchildren, htext⟩ | ⟨values, rfl, hvalues, hne, hattrs, hchildren, htext⟩⟩
    · refine ⟨?_, rfl, .length ⟨hname, hattrs, hchildren⟩ htext hbase hleast hgreatest hbounded⟩
      intro hnil
      rw [hnil] at hleast hgreatest
      cases least <;> cases greatest <;> simp_all
    · refine ⟨?_, rfl, .enumeration ⟨hname, hattrs, hchildren⟩ htext hbase hvalues hne⟩
      intro hnil
      have hforms := hvalues.forms
      rw [hnil] at hforms
      exact hne (List.forall₂_nil_left_iff.mp hforms)
  · rintro ⟨hne, hkind, hwritten⟩
    cases hwritten with
    | length shape text hbase hleast hgreatest bounded =>
      exact ⟨shape.name, _, hbase, Or.inl ⟨_, _, rfl, hleast, hgreatest, bounded, shape.attrs,
        shape.children, text⟩⟩
    | enumeration shape text hbase hvalues nonempty =>
      exact ⟨shape.name, _, hbase, Or.inr ⟨_, rfl, hvalues, nonempty, shape.attrs,
        shape.children, text⟩⟩
    | list leaf => simp [SimpleKind.element] at hkind
    | union leaf => simp [SimpleKind.element] at hkind
    | unrestricted leaf => exact absurd (namesIn_nil_iff.mp leaf.shape.children) hne

theorem reads_listType_iff {kind : SimpleKind} :
    listType.Reads e kind ↔ kind.element = "list" ∧ SimpleKind.Written e kind := by
  rw [show listType.Reads e kind ↔ _ from reads_leafMap_iff]
  constructor
  · rintro ⟨w, hleaf, rfl⟩
    exact ⟨rfl, .list hleaf⟩
  · rintro ⟨hkind, hwritten⟩
    cases hwritten with
    | list leaf => exact ⟨_, leaf, rfl⟩
    | _ => simp [SimpleKind.element] at hkind

theorem reads_unionType_iff {kind : SimpleKind} :
    unionType.Reads e kind ↔ kind.element = "union" ∧ SimpleKind.Written e kind := by
  rw [show unionType.Reads e kind ↔ _ from reads_leafMap_iff]
  constructor
  · rintro ⟨w, hleaf, rfl⟩
    exact ⟨rfl, .union hleaf⟩
  · rintro ⟨hkind, hwritten⟩
    cases hwritten with
    | union leaf => exact ⟨_, leaf, rfl⟩
    | _ => simp [SimpleKind.element] at hkind

theorem reads_aliasType_iff {kind : SimpleKind} :
    aliasType.Reads e kind ↔
      e.children = [] ∧ kind.element = "restriction" ∧ SimpleKind.Written e kind := by
  rw [show aliasType.Reads e kind ↔ _ from reads_leafMap_iff]
  constructor
  · rintro ⟨w, hleaf, rfl⟩
    exact ⟨namesIn_nil_iff.mp hleaf.shape.children, rfl, .unrestricted hleaf⟩
  · rintro ⟨hnil, hkind, hwritten⟩
    cases hwritten with
    | length _ _ _ hleast hgreatest bounded =>
      rw [hnil] at hleast hgreatest
      refine absurd ⟨?_, ?_⟩ bounded
      · simpa using List.forall₂_nil_left_iff.mp hleast
      · simpa using List.forall₂_nil_left_iff.mp hgreatest
    | enumeration _ _ _ hvalues nonempty =>
      have hforms := hvalues.forms
      rw [hnil] at hforms
      exact absurd (List.forall₂_nil_left_iff.mp hforms) nonempty
    | list leaf => simp [SimpleKind.element] at hkind
    | union leaf => simp [SimpleKind.element] at hkind
    | unrestricted leaf => exact ⟨_, leaf, rfl⟩

/-- Rules for a child of different names exclude each other where no child may be left. -/
theorem excludes_child_of_ne {rule rule' : Rule α} {name name' : String} [Named rule name]
    [Named rule' name'] {Q : α → Prop} (h : name ≠ name') :
    Excludes x (fun v y => Q v ∧ y.isDrained = true) (Rule.child rule) (Rule.child rule') :=
  Rule.excludes_child (fun _ _ hy => children_of_isDrained hy.2) fun _ _ _ hread hread' =>
    h ((Named.reads hread).symm.trans (Named.reads hread'))

/-- A restriction that says something is no restriction that says nothing. -/
theorem excludes_restriction_alias {a : Arrangement} (ha : a.IsPermutation)
    {Q : SimpleKind → Prop} :
    Excludes x (fun k y => Q k ∧ y.isDrained = true) (Rule.child (restriction a))
      (Rule.child aliasType) :=
  Rule.excludes_child (fun _ _ hy => children_of_isDrained hy.2) fun _ _ _ hread hread' =>
    ((reads_restriction_iff ha).mp hread).1 (reads_aliasType_iff.mp hread').1

theorem ends_simpleKind_iff {a : Arrangement} (ha : a.IsPermutation) {Q : SimpleKind → Prop} :
    (a.oneOf .simpleKind [Rule.child (restriction a), Rule.child listType,
        Rule.child unionType, Rule.child aliasType]).Ends x (fun k y => Q k ∧ y.isDrained = true) ↔
      ∃ kind, List.Forall₂ SimpleKind.Written (named kind.element x.children) [kind] ∧
        Q kind ∧ (x.dropNamed kind.element).isDrained = true := by
  rw [ends_arrangement_iff ha rfl]
  · simp only [List.mem_cons, List.not_mem_nil, or_false, exists_eq_or_imp, exists_eq_left,
      ends_child_drained_iff]
    constructor
    · rintro (⟨k, hall, hQ, hy⟩ | ⟨k, hall, hQ, hy⟩ | ⟨k, hall, hQ, hy⟩ | ⟨k, hall, hQ, hy⟩)
      all_goals
        obtain ⟨c, _, hread, hnil, hcs⟩ := List.forall₂_cons_right_iff.mp hall
        obtain rfl := List.forall₂_nil_right_iff.mp hnil
      · obtain ⟨_, hkind, hwritten⟩ := (reads_restriction_iff ha).mp hread
        exact ⟨k, hkind ▸ hcs ▸ .cons hwritten .nil, hQ, hkind ▸ hy⟩
      · obtain ⟨hkind, hwritten⟩ := reads_listType_iff.mp hread
        exact ⟨k, hkind ▸ hcs ▸ .cons hwritten .nil, hQ, hkind ▸ hy⟩
      · obtain ⟨hkind, hwritten⟩ := reads_unionType_iff.mp hread
        exact ⟨k, hkind ▸ hcs ▸ .cons hwritten .nil, hQ, hkind ▸ hy⟩
      · obtain ⟨_, hkind, hwritten⟩ := reads_aliasType_iff.mp hread
        exact ⟨k, hkind ▸ hcs ▸ .cons hwritten .nil, hQ, hkind ▸ hy⟩
    · rintro ⟨k, hall, hQ, hy⟩
      obtain ⟨c, hcs, hwritten⟩ := forall₂_singleton_right_iff.mp hall
      have hkind : k.element = "restriction" ∨ k.element = "list" ∨ k.element = "union" := by
        cases k <;> simp [SimpleKind.element]
      rcases hkind with hkind | hkind | hkind
      · rw [hkind] at hcs hy
        by_cases hnil : c.children = []
        · have hread := reads_aliasType_iff.mpr ⟨hnil, hkind, hwritten⟩
          exact Or.inr (Or.inr (Or.inr ⟨k, hcs ▸ .cons hread .nil, hQ, hy⟩))
        · have hread := (reads_restriction_iff ha).mpr ⟨hnil, hkind, hwritten⟩
          exact Or.inl ⟨k, hcs ▸ .cons hread .nil, hQ, hy⟩
      · rw [hkind] at hcs hy
        have hread := reads_listType_iff.mpr ⟨hkind, hwritten⟩
        exact Or.inr (Or.inl ⟨k, hcs ▸ .cons hread .nil, hQ, hy⟩)
      · rw [hkind] at hcs hy
        have hread := reads_unionType_iff.mpr ⟨hkind, hwritten⟩
        exact Or.inr (Or.inr (Or.inl ⟨k, hcs ▸ .cons hread .nil, hQ, hy⟩))
  · simp only [List.pairwise_cons, List.mem_cons, List.not_mem_nil, or_false, forall_eq_or_imp,
      forall_eq, List.Pairwise.nil, and_true, false_imp_iff, implies_true]
    exact ⟨⟨excludes_child_of_ne (by decide), excludes_child_of_ne (by decide),
        excludes_restriction_alias ha⟩,
      ⟨excludes_child_of_ne (by decide), excludes_child_of_ne (by decide)⟩,
      excludes_child_of_ne (by decide)⟩

instance (a : Arrangement) : Named (SimpleType.rule a) "simpleType" := Rule.named_bind _

theorem reads_simpleType {a : Arrangement} (ha : a.IsPermutation) :
    (SimpleType.rule a).Reads = SimpleType.Written := by
  funext e t
  obtain ⟨name, doc, kind⟩ := t
  simp only [reads_iff_ends, SimpleType.rule, ends_bind, ends_matchName, ends_takeAttr,
    ends_pure, ends_simpleKind_iff ha]
  rw [ends_documentation_iff]
  · simp only [Rest.isDrained_iff, Rest.element_ofElement, Rest.attrs_ofElement,
      Rest.attrs_dropAttr, Rest.attrs_dropNamed, Rest.children_dropAttr,
      Rest.children_dropNamed, Rest.children_ofElement, Rest.text_dropAttr,
      Rest.text_dropNamed, Rest.text_ofElement, Attributes.among_without_iff List.not_mem_nil,
      namesIn_others_iff, SimpleType.mk.injEq]
    have hne : ∀ k : SimpleKind, k.element ≠ "annotation" := by
      intro k
      cases k <;> simp [SimpleKind.element]
    refine propext ⟨?_, ?_⟩
    · rintro ⟨hname, _, hdoc, _, hall, ⟨rfl, rfl, rfl⟩, hattrs, hchildren, htext⟩
      rw [named_others (hne _)] at hall
      exact ⟨⟨hname, hattrs, hchildren⟩, htext, rfl, hdoc, hall⟩
    · rintro ⟨⟨hname, hattrs, hchildren⟩, htext, hvalue, hdoc, hall⟩
      refine ⟨hname, doc, hdoc, kind, ?_, ⟨hvalue, rfl, rfl⟩, hattrs, hchildren, htext⟩
      rw [named_others (hne _)]
      exact hall
  · rintro _ y ⟨k, _, _, hdrained⟩
    have hnone := named_of_isDrained hdrained "annotation"
    rw [Rest.children_dropNamed, named_others] at hnone
    · exact hnone
    · cases k <;> simp [SimpleKind.element]

/-! ## Attributes -/

/-- A type has one source, an attribute or a child, where neither may be left. -/
theorem ends_typeSource_iff {σ τ : Type} {a : Arrangement} (ha : a.IsPermutation)
    {point : ChoicePoint} (hsize : 2 = point.size) {rule : Rule τ} {name : String}
    [Named rule name] {ofName : String → σ} {ofType : τ → σ} {P : σ → Rest → Prop}
    (hP : ∀ t y, P t y → y.attrs.value? "type" = none ∧ named name y.children = []) :
    (a.oneOf point [Rule.attr "type" >>= fun w => pure (ofName w),
        Rule.child rule >>= fun v => pure (ofType v)]).Ends x P ↔
      (∃ w, x.attrs.value? "type" = some w ∧ named name x.children = [] ∧
          P (ofName w) ((x.dropAttr "type").dropNamed name)) ∨
        ∃ v, x.attrs.value? "type" = none ∧
          List.Forall₂ rule.Reads (named name x.children) [v] ∧
          P (ofType v) ((x.dropAttr "type").dropNamed name) := by
  have hname : (Rule.attr "type" >>= fun w => pure (ofName w)).Ends x P ↔
      ∃ w, x.attrs.value? "type" = some w ∧ named name x.children = [] ∧
        P (ofName w) ((x.dropAttr "type").dropNamed name) := by
    simp only [ends_bind, ends_pure, ends_attr]
    refine exists_congr fun w => and_congr_right fun _ => ⟨fun h => ?_, fun h => ?_⟩
    · have hnone : named name (x.dropAttr "type").children = [] := (hP _ _ h).2
      exact ⟨hnone, (Rest.dropNamed_of_named_nil hnone).symm ▸ h⟩
    · have hnone : named name (x.dropAttr "type").children = [] := h.1
      exact Rest.dropNamed_of_named_nil hnone ▸ h.2
  have htype : (Rule.child rule >>= fun v => pure (ofType v)).Ends x P ↔
      ∃ v, x.attrs.value? "type" = none ∧
        List.Forall₂ rule.Reads (named name x.children) [v] ∧
        P (ofType v) ((x.dropAttr "type").dropNamed name) := by
    simp only [ends_bind, ends_pure]
    rw [Rule.ends_child_iff fun v y h => (hP _ y h).2]
    refine exists_congr fun v => ?_
    constructor
    · rintro ⟨hall, h⟩
      have hnone : x.attrs.value? "type" = none := (hP _ _ h).1
      exact ⟨hnone, hall, (Rest.dropAttr_of_value?_none hnone).symm ▸ h⟩
    · rintro ⟨hnone, hall, h⟩
      exact ⟨hall, Rest.dropAttr_of_value?_none hnone ▸ h⟩
  have hexcludes : [Rule.attr "type" >>= fun w => pure (ofName w),
      Rule.child rule >>= fun v => pure (ofType v)].Pairwise (Excludes x P) := by
    refine List.pairwise_pair.mpr ⟨fun hends hends' => ?_, fun hends' hends => ?_⟩
    · obtain ⟨_, _, hnone, _⟩ := hname.mp hends
      exact Rule.not_ends_child_of_named_nil hnone (ends_bind.mp hends')
    · obtain ⟨_, hnone, _⟩ := htype.mp hends'
      simp only [ends_bind, ends_attr, hnone] at hends
      obtain ⟨_, h, _⟩ := hends
      cases h
  rw [ends_arrangement_iff ha (by exact hsize) hexcludes]
  simp only [List.mem_cons, List.not_mem_nil, or_false, exists_eq_or_imp, exists_eq_left,
    hname, htype]

theorem ends_attributeType_iff {a : Arrangement} (ha : a.IsPermutation)
    {P : AttributeType → Rest → Prop}
    (hP : ∀ t y, P t y → y.attrs.value? "type" = none ∧ named "simpleType" y.children = []) :
    (AttributeType.rule a).Ends x P ↔
      ∃ t : AttributeType, x.attrs.value? "type" = t.name? ∧
        List.Forall₂ SimpleType.Written (named "simpleType" x.children) t.given?.toList ∧
        P t ((x.dropAttr "type").dropNamed "simpleType") := by
  unfold AttributeType.rule
  rw [ends_typeSource_iff ha rfl hP, reads_simpleType ha]
  constructor
  · rintro (⟨w, hvalue, hnone, h⟩ | ⟨t, hvalue, hall, h⟩)
    · exact ⟨.named w, hvalue, hnone ▸ .nil, h⟩
    · exact ⟨.given t, hvalue, hall, h⟩
  · rintro ⟨t, hvalue, hall, h⟩
    cases t with
    | named w => exact Or.inl ⟨w, hvalue, List.forall₂_nil_right_iff.mp hall, h⟩
    | given t => exact Or.inr ⟨t, hvalue, hall, h⟩

instance (a : Arrangement) : Named (AttributeDecl.rule a) "attribute" := Rule.named_bind _

theorem reads_attributeDecl {a : Arrangement} (ha : a.IsPermutation) :
    (AttributeDecl.rule a).Reads = AttributeDecl.Written := by
  funext e d
  obtain ⟨name, doc, type, usage, default⟩ := d
  simp only [reads_iff_ends, AttributeDecl.rule, ends_bind, ends_matchName, ends_takeAttr,
    ends_attr, ends_pure, Rule.ends_blankText]
  -- What is left after the type is bounded by what the rule takes then.
  have hrest : ∀ (t : AttributeType) (y : Rest),
      (∃ w, y.attrs.value? "name" = some w ∧ documentation.Ends (y.dropAttr "name") fun doc' z =>
          (⟨w, doc', t, z.attrs.value? "use", (z.dropAttr "use").attrs.value? "default"⟩ :
              AttributeDecl) = ⟨name, doc, type, usage, default⟩ ∧
            ((z.dropAttr "use").dropAttr "default").isDrained = true) ↔
        y.attrs.value? "name" = some name ∧ Documents y.children doc ∧ t = type ∧
          y.attrs.value? "use" = usage ∧ y.attrs.value? "default" = default ∧
          y.attrs.Among ["name", "use", "default"] ∧ NamesIn ["annotation"] y.children ∧
          y.text = none := by
    intro t y
    refine (exists_congr fun w => and_congr_right fun _ =>
      ends_documentation_iff fun _ z h =>
        show named "annotation" ((z.dropAttr "use").dropAttr "default").children = [] from
          named_of_isDrained h.2 _).trans ?_
    simp +decide only [Rest.isDrained_iff, Rest.attrs_dropAttr, Rest.attrs_dropNamed,
      Rest.children_dropAttr, Rest.children_dropNamed, Rest.text_dropAttr, Rest.text_dropNamed,
      namesIn_others_iff, Attributes.value?_without, Attributes.among_without_iff,
      AttributeDecl.mk.injEq]
    constructor
    · rintro ⟨_, hname, _, hdoc, ⟨rfl, rfl, rfl, rfl, rfl⟩, hattrs, hchildren, htext⟩
      exact ⟨hname, hdoc, rfl, rfl, rfl, hattrs, hchildren, htext⟩
    · rintro ⟨hname, hdoc, rfl, rfl, rfl, hattrs, hchildren, htext⟩
      exact ⟨_, hname, _, hdoc, ⟨rfl, rfl, rfl, rfl, rfl⟩, hattrs, hchildren, htext⟩
  rw [Rule.ends_congr hrest, ends_attributeType_iff ha]
  · simp +decide only [Rest.element_ofElement, Rest.attrs_ofElement, Rest.attrs_dropText,
      Rest.attrs_dropAttr, Rest.attrs_dropNamed, Rest.children_ofElement,
      Rest.children_dropText, Rest.children_dropAttr, Rest.children_dropNamed,
      Rest.text_ofElement, Rest.text_dropText, Rest.text_dropAttr, Rest.text_dropNamed,
      namesIn_others_iff, Attributes.value?_without, Attributes.among_without_iff,
      documents_others, and_true]
    refine propext ⟨?_, ?_⟩
    · rintro ⟨helement, hblank, _, htype, hall, hname, hdoc, rfl, husage, hdefault, hattrs,
        hchildren⟩
      exact ⟨⟨helement, hattrs, hchildren⟩, hblank, htype, hall, hname, hdoc, husage, hdefault⟩
    · rintro ⟨⟨helement, hattrs, hchildren⟩, hblank, htype, hall, hname, hdoc, husage, hdefault⟩
      exact ⟨helement, hblank, type, htype, hall, hname, hdoc, rfl, husage, hdefault, hattrs,
        hchildren⟩
  · rintro t y ⟨_, _, _, _, _, hattrs, hchildren, _⟩
    exact ⟨hattrs.value?_eq_none (by decide), hchildren.named_eq_nil (by decide)⟩

instance (a : Arrangement) : Named (AttributeGroup.rule a) "attributeGroup" :=
  Rule.named_bind _

theorem reads_attributeGroup {a : Arrangement} (ha : a.IsPermutation) :
    (AttributeGroup.rule a).Reads = AttributeGroup.Written := by
  funext e g
  obtain ⟨name, attributes⟩ := g
  simp only [reads_iff_ends, AttributeGroup.rule, ends_bind, ends_matchName, ends_attr,
    ends_pure, ends_children_drained_iff, reads_attributeDecl ha]
  simp only [Rest.isDrained_iff, Rest.element_ofElement, Rest.attrs_ofElement,
    Rest.attrs_dropAttr, Rest.attrs_dropNamed, Rest.children_dropAttr, Rest.children_dropNamed,
    Rest.children_ofElement, Rest.text_dropAttr, Rest.text_dropNamed, Rest.text_ofElement,
    Attributes.among_without_iff List.not_mem_nil, namesIn_others_iff,
    AttributeGroup.mk.injEq]
  refine propext ⟨?_, ?_⟩
  · rintro ⟨helement, _, hname, _, hlisted, hne, ⟨rfl, rfl⟩, hattrs, hchildren, htext⟩
    exact ⟨⟨helement, hattrs, hchildren⟩, htext, hname, hlisted, hne⟩
  · rintro ⟨⟨helement, hattrs, hchildren⟩, htext, hname, hlisted, hne⟩
    exact ⟨helement, name, hname, attributes, hlisted, hne, ⟨rfl, rfl⟩, hattrs, hchildren,
      htext⟩

end ElementGrammar.Xsd
