import ElementGrammar.Proofs.Rule.Quota
import ElementGrammar.Proofs.Tree.Proper
import ElementGrammar.Proofs.Xsd.Levels

/-!
# Conditions on elements

A written form relates an element to a declaration.  Here is what has to hold of the element
alone, so that there is a declaration.

* `Element.width` is the greatest number of children that an element has, in the tree.
* `Element.OnlyAttr` is an element with one attribute and nothing else, which is what a leaf
  is (`leaf_iff_onlyAttr`).
* `Annotated` are children with one well-formed annotation at most, which is what they have to
  be so that there is a documentation (`exists_documents_iff`).
* `exists_forall₂_iff` and `exists_option_forall₂_iff` find the values of several children, or
  of one at most, from those of each.
-/

namespace ElementGrammar

/-! ## Trees -/

namespace Element

mutual

/-- The greatest number of children of an element in the tree. -/
def width : Element → Nat
  | ⟨_, _, children, _⟩ => max children.length (widthOfAll children)

def widthOfAll : List Element → Nat
  | [] => 0
  | e :: es => max (width e) (widthOfAll es)

end

theorem width_le_widthOfAll {c : Element} {cs : List Element} (h : c ∈ cs) :
    c.width ≤ widthOfAll cs := by
  induction cs with
  | nil => exact absurd h List.not_mem_nil
  | cons d cs ih =>
    unfold widthOfAll
    rcases List.mem_cons.mp h with rfl | h
    · exact Nat.le_max_left ..
    · exact Nat.le_trans (ih h) (Nat.le_max_right ..)

variable {e c : Element}

theorem width_eq (e : Element) : e.width = max e.children.length (widthOfAll e.children) := by
  cases e
  rfl

theorem length_children_le_width : e.children.length ≤ e.width := by
  rw [width_eq]
  exact Nat.le_max_left ..

theorem width_le_of_mem (h : c ∈ e.children) : c.width ≤ e.width := by
  rw [width_eq e]
  exact Nat.le_trans (width_le_widthOfAll h) (Nat.le_max_right ..)

theorem length_children_le_of_mem (h : c ∈ e.children) : c.children.length ≤ e.width :=
  Nat.le_trans length_children_le_width (width_le_of_mem h)

/-- An element with one attribute and nothing else. -/
structure OnlyAttr (e : Element) (key value : String) : Prop where
  attrs : e.attrs = [⟨key, value⟩]
  children : e.children = []
  text : e.text = none

end Element

/-- One attribute is all that there is where there are none but those of its name. -/
theorem Attributes.among_value?_iff {as : Attributes} {key value : String} :
    as.Among [key] ∧ as.value? key = some value ↔ as = [⟨key, value⟩] := by
  constructor
  · intro h
    obtain ⟨hamong, hvalue⟩ := h
    cases as with
    | nil => contradiction
    | cons a as =>
      obtain ⟨hname, hfresh, hrest⟩ := among_cons_iff.mp hamong
      have hkey : a.name = key := List.mem_singleton.mp hname
      rw [hkey] at hfresh
      have hnil : as = [] := among_nil_iff.mp ((among_iff_of_value?_none hfresh).mpr hrest)
      rw [value?_cons, if_pos hkey, Option.some.injEq] at hvalue
      rw [hnil, ← hkey, ← hvalue]
  · intro h
    subst h
    refine ⟨among_cons_iff.mpr ⟨List.mem_singleton_self _, rfl, distinct_nil, ?_⟩, ?_⟩
    · exact fun _ h => absurd h List.not_mem_nil
    · rw [value?_cons, if_pos rfl]

/-! ## Values of children -/

section Values

variable {α : Type} {R : Element → α → Prop} {name : String} {cs : List Element}

theorem exists_forall₂_iff :
    (∃ vs, List.Forall₂ R cs vs) ↔ ∀ c ∈ cs, ∃ v, R c v := by
  constructor
  · intro h
    obtain ⟨vs, h⟩ := h
    induction h with
    | nil => exact fun _ h => absurd h List.not_mem_nil
    | cons h _ ih => exact List.forall_mem_cons.mpr ⟨⟨_, h⟩, ih⟩
  · intro h
    induction cs with
    | nil => exact ⟨[], .nil⟩
    | cons c cs ih =>
      obtain ⟨⟨v, hv⟩, hrest⟩ := List.forall_mem_cons.mp h
      obtain ⟨vs, hvs⟩ := ih hrest
      exact ⟨v :: vs, .cons hv hvs⟩

theorem exists_option_forall₂_iff :
    (∃ o : Option α, List.Forall₂ R cs o.toList) ↔ cs.length ≤ 1 ∧ ∀ c ∈ cs, ∃ v, R c v := by
  constructor
  · intro h
    obtain ⟨o, h⟩ := h
    refine ⟨?_, exists_forall₂_iff.mp ⟨_, h⟩⟩
    rw [h.length_eq]
    cases o with
    | none => exact Nat.zero_le 1
    | some v => exact Nat.le_refl 1
  · intro h
    obtain ⟨hlength, h⟩ := h
    obtain ⟨vs, hvs⟩ := exists_forall₂_iff.mpr h
    rw [hvs.length_eq] at hlength
    match vs with
    | [] => exact ⟨none, hvs⟩
    | [v] => exact ⟨some v, hvs⟩

/-- A single child of one name that stands for a value is all that there is. -/
theorem namesIn_forall₂_singleton_iff {v : α} :
    NamesIn [name] cs ∧ List.Forall₂ R (named name cs) [v] ↔
      ∃ c, cs = [c] ∧ c.name = name ∧ R c v := by
  constructor
  · intro h
    obtain ⟨hnames, h⟩ := h
    rw [hnames.named_eq_self] at h
    obtain ⟨c, rfl, hc⟩ := forall₂_singleton_right_iff.mp h
    exact ⟨c, rfl, List.mem_singleton.mp (hnames c List.mem_cons_self), hc⟩
  · intro h
    obtain ⟨c, rfl, hname, hc⟩ := h
    have hnames : NamesIn [name] [c] := by
      intro d hd
      rw [List.mem_singleton.mp hd, hname]
      exact List.mem_cons_self
    refine ⟨hnames, ?_⟩
    rw [hnames.named_eq_self]
    exact .cons hc .nil

end Values

namespace Xsd

variable {c : Element} {cs : List Element} {name key value : String}

/-! ## Leaves and annotations -/

theorem leaf_iff_onlyAttr :
    Leaf name key c value ↔ c.name = name ∧ c.OnlyAttr key value := by
  constructor
  · intro h
    exact ⟨h.shape.name, Attributes.among_value?_iff.mp ⟨h.shape.attrs, h.value⟩,
      namesIn_nil_iff.mp h.shape.children, h.text⟩
  · intro h
    obtain ⟨hname, hattrs, hchildren, htext⟩ := h
    obtain ⟨hamong, hvalue⟩ := Attributes.among_value?_iff.mpr hattrs
    exact ⟨⟨hname, hamong, namesIn_nil_iff.mpr hchildren⟩, htext, hvalue⟩

/-- Of children of one name the leaves are those with one attribute and nothing else. -/
theorem forall₂_leaf_iff {values : List String} :
    List.Forall₂ (Leaf name key) (named name cs) values ↔
      List.Forall₂ (fun c value => c.OnlyAttr key value) (named name cs) values := by
  have hleaf : Leaf name key = fun c value => c.name = name ∧ c.OnlyAttr key value :=
    funext₂ fun _ _ => propext leaf_iff_onlyAttr
  rw [hleaf, List.forall₂_and_left]
  exact and_iff_right fun c hc => (mem_named.mp hc).2

/-- Among children that are not too many those of a name are not. -/
theorem listed_iff_forall₂ {α : Type} {Form : Element → α → Prop} {vs : List α}
    (h : cs.length ≤ Rule.unlimited) :
    Listed Form name cs vs ↔ List.Forall₂ Form (named name cs) vs := by
  rw [listed_iff]
  refine and_iff_left_of_imp fun hforms => ?_
  rw [← hforms.length_eq]
  exact Nat.le_trans (List.length_filter_le _ _) h

/-- An annotation with nothing but one documentation, which has no attributes and no
children. -/
def Annotation.WellFormed (c : Element) : Prop :=
  c.attrs = [] ∧ c.text = none ∧
    ∃ d, c.children = [d] ∧ d.name = "documentation" ∧ d.attrs = [] ∧ d.children = []

/-- Children with one annotation at most, which is well-formed. -/
structure Annotated (cs : List Element) : Prop where
  length : (named "annotation" cs).length ≤ 1
  wellFormed : ∀ c ∈ named "annotation" cs, Annotation.WellFormed c

theorem exists_annotation_iff :
    (∃ doc, Annotation.Written c doc) ↔ c.name = "annotation" ∧ Annotation.WellFormed c := by
  constructor
  · intro h
    obtain ⟨doc, h⟩ := h
    obtain ⟨d, hchildren, hname, hdoc⟩ :=
      namesIn_forall₂_singleton_iff.mp ⟨h.shape.children, h.documentation⟩
    exact ⟨h.shape.name, Attributes.among_nil_iff.mp h.shape.attrs, h.text, d, hchildren, hname,
      Attributes.among_nil_iff.mp hdoc.shape.attrs, namesIn_nil_iff.mp hdoc.shape.children⟩
  · intro h
    obtain ⟨hname, hattrs, htext, d, hchildren, hdocumentation, hnone, hempty⟩ := h
    have hwritten : Documentation.Written d (Text.trim (d.text.getD "")) :=
      ⟨⟨hdocumentation, Attributes.among_nil_iff.mpr hnone, namesIn_nil_iff.mpr hempty⟩, rfl⟩
    obtain ⟨hnames, hall⟩ :=
      namesIn_forall₂_singleton_iff.mpr ⟨d, hchildren, hdocumentation, hwritten⟩
    exact ⟨_, ⟨hname, Attributes.among_nil_iff.mpr hattrs, hnames⟩, htext, hall⟩

theorem exists_documents_iff : (∃ doc, Documents cs doc) ↔ Annotated cs := by
  have hformed : ∀ c ∈ named "annotation" cs,
      ((∃ doc, Annotation.Written c doc) ↔ Annotation.WellFormed c) := by
    intro c hc
    rw [exists_annotation_iff]
    exact and_iff_right (mem_named.mp hc).2
  constructor
  · intro h
    obtain ⟨_, o, hall, _⟩ := h
    obtain ⟨hlength, hwritten⟩ := exists_option_forall₂_iff.mp ⟨o, hall⟩
    exact ⟨hlength, fun c hc => (hformed c hc).mp (hwritten c hc)⟩
  · intro h
    obtain ⟨o, hall⟩ := exists_option_forall₂_iff.mpr
      ⟨h.length, fun c hc => (hformed c hc).mpr (h.wellFormed c hc)⟩
    exact ⟨o.getD "", o, hall, rfl⟩

/-! ## Verdicts -/

section Verdicts

variable (tracing : Tracing) {c : Element}

theorem verdict_attributeDecl_iff {d : AttributeDecl} :
    (AttributeDecl.rule .declared).verdict tracing c = .ok d ↔ d.Written c := by
  rw [← reads_attributeDecl Arrangement.declared_isPermutation]
  exact Rule.run_eq_ok_iff tracing blind_attributeDecl

theorem verdict_simpleType_iff {t : SimpleType} :
    (SimpleType.rule .declared).verdict tracing c = .ok t ↔ t.Written c := by
  rw [← reads_simpleType Arrangement.declared_isPermutation]
  exact Rule.run_eq_ok_iff tracing blind_simpleType

theorem verdict_sequence_iff {s : Sequence} :
    (Sequence.rule .declared).verdict tracing c = .ok s ↔
      s.WrittenOver (ElementDecl.rule .declared).Reads c := by
  rw [← reads_sequence]
  exact Rule.run_eq_ok_iff tracing (blind_withLevels blind_sequenceOver)

theorem verdict_choice_iff {v : Choice} :
    (Choice.rule .declared).verdict tracing c = .ok v ↔
      v.WrittenOver (ElementDecl.rule .declared).Reads c := by
  rw [← reads_choice]
  exact Rule.run_eq_ok_iff tracing (blind_withLevels blind_choiceOver)

theorem verdict_complexType_iff {t : ComplexType} :
    (ComplexType.rule .declared).verdict tracing c = .ok t ↔
      t.WrittenOver (ElementDecl.rule .declared).Reads c := by
  rw [← reads_complexType Arrangement.declared_isPermutation]
  exact Rule.run_eq_ok_iff tracing (blind_withLevels blind_complexTypeOver)

theorem verdict_element_iff {d : ElementDecl} :
    (ElementDecl.rule .declared).verdict tracing c = .ok d ↔
      d.WrittenOver (ElementDecl.rule .declared).Reads c := by
  rw [← reads_element_iff Arrangement.declared_isPermutation]
  exact Rule.run_eq_ok_iff tracing blind_element

end Verdicts

end Xsd

end ElementGrammar
