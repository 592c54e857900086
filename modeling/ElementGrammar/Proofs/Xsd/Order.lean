import ElementGrammar.Proofs.Xsd.Alike
import ElementGrammar.Proofs.Xsd.Levels
import ElementGrammar.Xsd.Entry

/-!
# Orders that do not matter

* The order in which the alternatives of the grammar are tried: whatever permutation each
  place has, every rule of the grammar matches the same elements with the same values
  (`RuleName.run_arranged_iff`).
* The order of attributes, and that of children that have different names:
  `Element.Rearranged` is any change of these at any depth, `Element.RearrangedRoot` is one of
  a whole schema, and `Schema.run_rearranged_iff` is that such a schema has the same value.

Neither asks the attributes of the elements to be distinct: an element that is read has
distinct attributes in any case.
-/

namespace ElementGrammar

/-! ## The order of alternatives -/

namespace Xsd

variable {a : Arrangement}

/-- In any arrangement the same elements are read. -/
theorem reads_element_arranged (ha : a.IsPermutation) :
    (ElementDecl.rule a).Reads = (ElementDecl.rule .declared).Reads := by
  have hdeclared := Arrangement.declared_isPermutation
  have hsame : ∀ c c' : Element, c = c' → c.AlikeOver Eq c' := by
    rintro c _ rfl
    exact .refl c
  funext e d
  refine propext ⟨writtenOver_transfer hsame ?_ ?_ rfl, writtenOver_transfer hsame ?_ ?_ rfl⟩
  · exact fun _ _ => (reads_element_iff ha).mp
  · exact fun _ _ => (reads_element_iff hdeclared).mpr
  · exact fun _ _ => (reads_element_iff hdeclared).mp
  · exact fun _ _ => (reads_element_iff ha).mpr

theorem blind_rule (name : RuleName) : (name.rule a).Blind := by
  have hcomplexType : (ComplexType.rule a).Blind := blind_withLevels blind_complexTypeOver
  have hsequence : (Sequence.rule a).Blind := blind_withLevels blind_sequenceOver
  have hchoice : (Choice.rule a).Blind := blind_withLevels blind_choiceOver
  have hschema : (Schema.rule a).Blind := blind_withLevels blind_schemaOver
  cases name <;> simp [RuleName.rule, hcomplexType, hsequence, hchoice, hschema]

/-- The same for the other rules: none of them looks at the alternatives in any other way. -/
theorem reads_rule_arranged (ha : a.IsPermutation) (name : RuleName) :
    (name.rule a).Reads = (name.rule .declared).Reads := by
  have hdeclared := Arrangement.declared_isPermutation
  funext e v
  cases name <;>
    simp only [RuleName.rule, reads_map_iff, reads_schema ha, reads_schema hdeclared,
      reads_element_arranged ha, reads_complexType ha, reads_complexType hdeclared,
      reads_simpleType ha, reads_simpleType hdeclared, reads_attributeDecl ha,
      reads_attributeDecl hdeclared, reads_attributeGroup ha, reads_attributeGroup hdeclared,
      reads_sequence, reads_choice]

/-- Every rule of the grammar matches the same elements with the same values whatever the
order is in which the alternatives of each place are tried. -/
theorem RuleName.run_arranged_iff (tracing : Tracing) (ha : a.IsPermutation) (name : RuleName)
    (e : Element) (v : Declared) :
    ((name.rule a).run tracing e).outcome = .ok v ↔
      ((name.rule .declared).run tracing e).outcome = .ok v := by
  rw [Rule.run_eq_ok_iff tracing (blind_rule name), Rule.run_eq_ok_iff tracing (blind_rule name),
    reads_rule_arranged ha]

/-- Every place tries its alternatives from the last to the first. -/
def Arrangement.reversed : Arrangement :=
  fun point => (List.range point.size).reverse

/-- A simple type whose values are listed. -/
def colours : Element :=
  ⟨"simpleType", [⟨"name", "colour"⟩],
    [⟨"restriction", [⟨"base", "xs:string"⟩],
      [⟨"enumeration", [⟨"value", "red"⟩], [], none⟩,
        ⟨"enumeration", [⟨"value", "blue"⟩], [], none⟩], none⟩], none⟩

/-- Tried from the last alternative on, a restriction with listed values is still not one
that says nothing. -/
theorem RuleName.run_arranged_iff_reversed :
    Arrangement.reversed.IsPermutation ∧
      ((RuleName.simpleType.rule .reversed).run .silent colours).outcome =
        .ok (.simpleType ⟨some "colour", "", .enumeration "xs:string" ["red", "blue"]⟩) := by
  have hreversed : Arrangement.reversed.IsPermutation := fun point => List.reverse_perm _
  exact ⟨hreversed, (RuleName.run_arranged_iff .silent hreversed .simpleType colours _).mpr rfl⟩

end Xsd

/-! ## The order of attributes and children -/

/-- The other element has the attributes in another order, and the children too, where
children of one name keep their order.  The same may be done with each of the children. -/
inductive Element.Rearranged : Element → Element → Prop where
  | intro {e e' : Element} {cs : List Element} (name : e'.name = e.name)
    (text : e'.text = e.text) (attrs : e.attrs.Perm e'.attrs)
    (inside : List.Forall₂ Rearranged e.children cs)
    (order : ∀ name, named name e'.children = named name cs) : Rearranged e e'

/-- The other schema has the attributes in another order, and imports, includes and
annotations at other places, where each of these three keeps its order, and the children that
declare something keep theirs.  Each of the children may be rearranged. -/
structure Element.RearrangedRoot (e e' : Element) : Prop where
  name : e'.name = e.name
  text : e'.text = e.text
  attrs : e.attrs.Perm e'.attrs
  children : ∃ cs, List.Forall₂ Rearranged e.children cs ∧
    (∀ name ∈ ["import", "include", "annotation"],
      named name e'.children = named name cs) ∧
    Xsd.declaringChildren e'.children = Xsd.declaringChildren cs

theorem Element.Rearranged.refl (e : Element) : e.Rearranged e :=
  .intro rfl rfl (.refl _) (List.forall₂_same.mpr fun c _ => refl c) fun _ => rfl
termination_by e.height
decreasing_by exact height_lt_of_mem (by assumption)

theorem Element.Rearranged.name_eq {e e' : Element} (h : e.Rearranged e') :
    e'.name = e.name := by
  cases h with
  | intro name => exact name

/-- Corresponding children of which some are kept by their names. -/
theorem forall₂_rearranged_filter {cs cs' : List Element} (p : String → Bool)
    (h : List.Forall₂ Element.Rearranged cs cs') :
    List.Forall₂ Element.Rearranged (cs.filter fun c => p c.name)
      (cs'.filter fun c => p c.name) :=
  List.rel_filter (fun c c' hc => by
    show p c.name = true ↔ p c'.name = true
    rw [hc.name_eq]) h

theorem Element.Rearranged.alike {e e' : Element} (h : e.Rearranged e') :
    e.AlikeOver Rearranged e' := by
  cases h with
  | intro name text attrs inside order =>
    refine ⟨name, text, attrs, fun other => ?_⟩
    rw [order]
    exact forall₂_rearranged_filter (· == other) inside

theorem Element.RearrangedRoot.alike {e e' : Element} (h : e.RearrangedRoot e') :
    e.RootAlikeOver Rearranged e' := by
  obtain ⟨name, text, attrs, cs, inside, others, declaring⟩ := h
  refine ⟨name, text, attrs, ?_, ?_⟩
  · rw [others "annotation" (by simp)]
    exact forall₂_rearranged_filter (· == "annotation") inside
  · rw [declaring]
    exact forall₂_rearranged_filter (· != "annotation") <|
      forall₂_rearranged_filter (· != "include") <|
        forall₂_rearranged_filter (· != "import") inside

namespace Xsd

/-- A schema has the same value in every order of attributes and of differently named
children. -/
theorem Schema.run_rearranged_iff (tracing : Tracing) {e e' : Element}
    (h : e.RearrangedRoot e') (s : Schema) :
    ((Schema.rule .declared).run tracing e).outcome = .ok s ↔
      ((Schema.rule .declared).run tracing e').outcome = .ok s := by
  have hdeclared := Arrangement.declared_isPermutation
  have hblind : (Schema.rule .declared).Blind := blind_withLevels blind_schemaOver
  have hforth : ∀ c c' : Element, c.Rearranged c' → c.AlikeOver Element.Rearranged c' :=
    fun _ _ hc => hc.alike
  have hback : ∀ c c' : Element, c'.Rearranged c → c.AlikeOver (fun c c' => c'.Rearranged c) c' :=
    fun _ _ hc => hc.alike.flip
  have hinner : ∀ (c : Element) (d : ElementDecl), (ElementDecl.rule .declared).Reads c d ↔
      d.WrittenOver (ElementDecl.rule .declared).Reads c :=
    fun _ _ => reads_element_iff hdeclared
  rw [Rule.run_eq_ok_iff tracing hblind, Rule.run_eq_ok_iff tracing hblind, reads_schema hdeclared]
  constructor
  · refine Schema.WrittenOver.alike hforth ?_ h.alike ?_
    · exact fun _ _ _ hc => writtenOver_transfer hforth (fun c d => (hinner c d).mp)
        (fun c d => (hinner c d).mpr) hc
    · exact fun _ _ _ hc => Annotation.Written.alike hback hc
  · refine Schema.WrittenOver.alike hback ?_ h.alike.flip ?_
    · exact fun _ _ _ hc => writtenOver_transfer hback (fun c d => (hinner c d).mp)
        (fun c d => (hinner c d).mpr) hc
    · exact fun _ _ _ hc => Annotation.Written.alike hforth hc

/-- An annotation with a text. -/
def describedAs (doc : String) : Element :=
  ⟨"annotation", [], [⟨"documentation", [], [], some doc⟩], none⟩

/-- A schema of two simple types. -/
def palette : Element :=
  ⟨"schema", [⟨"version", "1"⟩, ⟨"targetNamespace", "urn:palette"⟩],
    [describedAs "Colours and shades",
      ⟨"simpleType", [⟨"name", "shade"⟩],
        [describedAs "A colour", ⟨"restriction", [⟨"base", "colour"⟩], [], none⟩], none⟩,
      colours], none⟩

/-- The same schema with its annotation and an attribute at other places. -/
def paletteRearranged : Element :=
  ⟨"schema", [⟨"targetNamespace", "urn:palette"⟩, ⟨"version", "1"⟩],
    [⟨"simpleType", [⟨"name", "shade"⟩],
        [⟨"restriction", [⟨"base", "colour"⟩], [], none⟩, describedAs "A colour"], none⟩,
      describedAs "Colours and shades", colours], none⟩

theorem Schema.run_rearranged_iff_palette :
    palette.RearrangedRoot paletteRearranged ∧
      ((Schema.rule .declared).run .silent paletteRearranged).outcome =
        .ok ⟨some "urn:palette", "Colours and shades",
          [.simpleType ⟨some "shade", "A colour", .alias "colour"⟩,
            .simpleType ⟨some "colour", "", .enumeration "xs:string" ["red", "blue"]⟩]⟩ := by
  have hshade : Element.Rearranged palette.children[1] paletteRearranged.children[0] :=
    .intro rfl rfl (.refl _) (.cons (.refl _) (.cons (.refl _) .nil)) fun _ =>
      named_swap (by decide)
  have hpalette : palette.RearrangedRoot paletteRearranged :=
    ⟨rfl, rfl, .swap _ _ _, _, .cons (.refl _) (.cons hshade (.cons (.refl _) .nil)),
      fun _ _ => named_swap (by decide), rfl⟩
  exact ⟨hpalette, (Schema.run_rearranged_iff .silent hpalette _).mp rfl⟩

end Xsd

end ElementGrammar
