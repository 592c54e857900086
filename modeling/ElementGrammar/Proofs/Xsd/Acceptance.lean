import ElementGrammar.Proofs.Rule.Blame
import ElementGrammar.Proofs.Xsd.Levels

/-!
# What a schema accepts

The rule for a schema is the conjunction of its items, and it reports all that is wrong at
once.

* `Schema.Admitted`: the element has no text, no attribute that a schema may not have, and
  every child that should declare something is read by the rule of its own name
  (`SchemaItem.given?`).
* `Schema.ValueOf` are the parts of the value, which come from the items one by one.
* `Schema.Reported` is the error of a schema that is not admitted.  It names each attribute
  and each child that is at fault, and the children with the error of the rule for an item.

`Schema.run_verdict` puts these together.  No step of the rule fails after the name of the
element has been asked for, so what the rule leaves decides: `ends_schema_left` says what
this is, and `leaves_schema_blamed` which errors are left on the children.
-/

namespace ElementGrammar

/-! ## Attributes and children that are left -/

namespace Attributes

variable {as : Attributes} {key : String}

/-- Where names are distinct an attribute that is taken out is all that there is under its
name. -/
theorem Distinct.without_eq_filter (h : as.Distinct) :
    as.without key = as.filter (·.name != key) := by
  induction as with
  | nil => rfl
  | cons a as ih =>
    obtain ⟨hfresh, hrest⟩ := distinct_cons_iff.mp h
    rw [without_cons, List.filter_cons]
    by_cases ha : a.name = key
    · have hall : as.filter (·.name != key) = as :=
        List.filter_eq_self.mpr fun b hb => by simpa [ha] using hfresh b hb
      simp [ha, hall]
    · simp [ha, ih hrest]

end Attributes

/-- A quota that is no bound picks all that can be read and leaves all others. -/
theorem Rest.pick_of_length_le {α : Type} {reader : Element → Option α} {quota : Nat}
    {cs : List Element} (h : cs.length ≤ quota) :
    pick reader quota cs = (cs.filterMap reader, cs.filter fun c => (reader c).isNone) := by
  induction cs generalizing quota with
  | nil => cases quota <;> rfl
  | cons c cs ih =>
    cases quota with
    | zero => exact absurd h (Nat.not_succ_le_zero _)
    | succ quota =>
      have hrest := Nat.le_of_succ_le_succ h
      cases hr : reader c with
      | some v => simp [pick, hr, ih hrest]
      | none => simp [pick, hr, ih (Nat.le_succ_of_le hrest)]

theorem Run.result_eq_some_iff {α : Type} {r : Run α} {value : α} {x : Rest} :
    r.result = some (value, x) ↔ r.outcome = .ok value ∧ r.scope.rest = x := by
  cases hr : r.outcome with
  | ok v => rw [result_of_ok hr]; simp
  | error e => rw [result_of_error hr]; simp

namespace Xsd

open Rule (Named)

/-! ## Items on their own -/

/-- The rule for an item on its own. -/
def SchemaItem.rule (a : Arrangement) : Rule SchemaItem :=
  withLevels (SchemaItem.ruleOver a) a

/-- What the rule of its own name gives for a child on its own. -/
def SchemaItem.given? (tracing : Tracing) (c : Element) : Option SchemaItem :=
  if c.name = "element" then
    ((ElementDecl.rule .declared).run tracing c).outcome.toOption.map .element
  else if c.name = "complexType" then
    ((ComplexType.rule .declared).run tracing c).outcome.toOption.map .complexType
  else if c.name = "simpleType" then
    ((SimpleType.rule .declared).run tracing c).outcome.toOption.map .simpleType
  else if c.name = "attributeGroup" then
    ((AttributeGroup.rule .declared).run tracing c).outcome.toOption.map .attributeGroup
  else none

variable {tracing : Tracing} {e c : Element} {item : SchemaItem}

theorem toOption_eq_some_iff {α ε : Type} {r : Except ε α} {v : α} :
    r.toOption = some v ↔ r = .ok v := by
  cases r <;> simp [Except.toOption]

theorem reads_iff_run {α : Type} (tracing : Tracing) {rule : Rule α} {name : String}
    [Named rule name] (h : rule.Blind) {v : α} :
    rule.Reads c v ↔ c.name = name ∧ (rule.run tracing c).outcome = .ok v := by
  rw [Rule.run_eq_ok_iff tracing h]
  exact ⟨fun hread => ⟨Named.reads hread, hread⟩, fun hread => hread.2⟩

instance (a : Arrangement) : Named (ComplexType.rule a) "complexType" := named_withLevels

/-- The rule for an item reads what the rule of the child's own name gives. -/
theorem given?_eq_some_iff :
    SchemaItem.given? tracing c = some item ↔
      SchemaItem.WrittenOver (ElementDecl.rule .declared).Reads c item := by
  have hdeclared := Arrangement.declared_isPermutation
  have hcomplexType : (ComplexType.rule .declared).Blind := blind_withLevels blind_complexTypeOver
  unfold SchemaItem.given?
  cases item with
  | element d =>
    show _ ↔ (ElementDecl.rule .declared).Reads c d
    rw [reads_iff_run tracing blind_element]
    split_ifs <;> simp_all [toOption_eq_some_iff]
  | complexType t =>
    show _ ↔ ComplexType.WrittenOver _ c t
    rw [← reads_complexType hdeclared, reads_iff_run tracing hcomplexType]
    split_ifs <;> simp_all [toOption_eq_some_iff]
  | simpleType t =>
    show _ ↔ SimpleType.Written c t
    rw [← reads_simpleType hdeclared, reads_iff_run tracing blind_simpleType]
    split_ifs <;> simp_all [toOption_eq_some_iff]
  | attributeGroup g =>
    show _ ↔ AttributeGroup.Written c g
    rw [← reads_attributeGroup hdeclared, reads_iff_run tracing blind_attributeGroup]
    split_ifs <;> simp_all [toOption_eq_some_iff]

/-! ## The verdict on a schema -/

/-- Attributes that a schema may have. -/
def Schema.allows (a : Attribute) : Bool :=
  "xmlns".toList.isPrefixOf a.name.toList ||
    ["elementFormDefault", "attributeFormDefault", "version", "targetNamespace"].contains a.name

/-- Everything in the element may be there. -/
structure Schema.Admitted (tracing : Tracing) (e : Element) : Prop where
  text : e.text = none
  attrs : ∀ a ∈ e.attrs, Schema.allows a = true
  items : ∀ c ∈ declaringChildren e.children, (SchemaItem.given? tracing c).isSome = true

/-- The parts of the value of a schema. -/
structure Schema.ValueOf (tracing : Tracing) (e : Element) (s : Schema) : Prop where
  targetNamespace : s.targetNamespace = e.attrs.value? "targetNamespace"
  doc : FirstDocumented (named "annotation" e.children) s.doc
  items : List.Forall₂ (fun c item => SchemaItem.given? tracing c = some item)
    (declaringChildren e.children) s.items

/-- The error of a schema: all that may not be there, in order, and each child with the error
of the rule for an item on that child alone. -/
def Schema.Reported (tracing : Tracing) (e : Element) (error : ParseError) : Prop :=
  ∃ slots, error = .remainingItems e (e.attrs.filter fun a => !Schema.allows a) slots e.text ∧
    slots.map (·.element) =
      (declaringChildren e.children).filter (fun c => (SchemaItem.given? tracing c).isNone) ∧
    ∀ slot ∈ slots, slot.BlamedBy ((SchemaItem.rule .declared).run tracing)

/-- What the rule for a schema leaves of the element. -/
def Schema.left (tracing : Tracing) (e : Element) : Rest :=
  ⟨e, e.attrs.filter fun a => !Schema.allows a,
    (declaringChildren e.children).filter fun c => (SchemaItem.given? tracing c).isNone, e.text⟩

theorem attrs_left_eq (h : e.attrs.Distinct) :
    ((((withoutNamespaces e.attrs).without "elementFormDefault").without
        "attributeFormDefault").without "version").without "targetNamespace" =
      e.attrs.filter fun a => !Schema.allows a := by
  have hnamespaces : (withoutNamespaces e.attrs).Distinct := h.filter _
  rw [hnamespaces.without_eq_filter, (hnamespaces.filter _).without_eq_filter,
    ((hnamespaces.filter _).filter _).without_eq_filter,
    (((hnamespaces.filter _).filter _).filter _).without_eq_filter]
  simp only [withoutNamespaces, List.filter_filter]
  refine List.filter_congr fun a _ => ?_
  simp only [Schema.allows, List.contains_cons, List.contains_nil, Bool.not_or, Bool.or_false, bne]
  ac_rfl

theorem items_reader_eq (tracing : Tracing) :
    (fun c => Rest.whole ((SchemaItem.ruleOver .declared (ElementDecl.rule .declared)).read
      (.ofElement c))) = SchemaItem.given? tracing := by
  funext c
  refine Option.ext fun item => ?_
  rw [given?_eq_some_iff,
    ← congrFun₂ (reads_schemaItemOver Arrangement.declared_isPermutation) c item]
  rfl

/-- There is always a documentation, if only an empty one. -/
theorem FirstDocumented.exists (cs : List Element) : ∃ doc, FirstDocumented cs doc := by
  induction cs with
  | nil => exact ⟨"", .none⟩
  | cons c cs ih =>
    by_cases h : ∃ doc, Annotation.Written c doc
    · obtain ⟨doc, h⟩ := h
      exact ⟨doc, .here h⟩
    · obtain ⟨doc, hdoc⟩ := ih
      exact ⟨doc, .later (not_exists.mp h) hdoc⟩

/-- After the name of the element no step fails, and what is left is what may not be there. -/
theorem ends_schema_left (tracing : Tracing) (hattrs : e.attrs.Distinct)
    (hlength : e.children.length ≤ Rule.unlimited) (hname : e.name = "schema") :
    (Schema.ruleOver .declared (ElementDecl.rule .declared)).Ends (.ofElement e) fun s x =>
      x = Schema.left tracing e ∧ s.targetNamespace = e.attrs.value? "targetNamespace" ∧
        FirstDocumented (named "annotation" e.children) s.doc ∧
        s.items = (declaringChildren e.children).filterMap (SchemaItem.given? tracing) := by
  have hvalue : (withoutNamespaces e.attrs).value? "targetNamespace" =
      e.attrs.value? "targetNamespace" :=
    Attributes.value?_filter fun a ha => by rw [ha]; decide
  have hdeclaring : (declaringChildren e.children).length ≤ Rule.unlimited :=
    Nat.le_trans (((List.filter_sublist.trans List.filter_sublist).trans
      List.filter_sublist).length_le) hlength
  obtain ⟨doc, hdoc⟩ := FirstDocumented.exists (named "annotation" e.children)
  simp only [Schema.ruleOver, Rule.ends_bind, Rule.ends_matchName, Rule.ends_dropAttrsFrom,
    Rule.ends_dropAttr, Rule.ends_takeAttr, Rule.ends_dropChildrenNamed, Rule.ends_pure]
  refine ⟨hname, ends_firstDocumentation_iff (P := fun doc y => (Rule.childrenOpt _).Ends y
    fun vs z => z = Schema.left tracing e ∧ _ = e.attrs.value? "targetNamespace" ∧
      FirstDocumented (named "annotation" e.children) doc ∧ vs = _) |>.mpr ⟨doc, ?_, ?_⟩⟩
  · simpa +decide only [Rest.children_dropNamed, Rest.children_dropAttr,
      Rest.children_dropAttrsFrom, Rest.children_ofElement, named_others] using hdoc
  · unfold Rule.childrenOpt
    rw [Rule.ends_childrenAtMost, items_reader_eq tracing,
      Rest.pick_of_length_le (show List.length (Rest.children _) ≤ _ from hdeclaring)]
    refine ⟨?_, ?_, hdoc, rfl⟩
    · show Rest.mk e _ _ e.text = _
      rw [Schema.left, ← attrs_left_eq hattrs]
      rfl
    · simp +decide only [Rest.attrs_dropAttr, Attributes.value?_without]
      exact hvalue

/-- The children that the rule for a schema leaves are blamed for not being items. -/
theorem leaves_schema_blamed (hlength : e.children.length ≤ Rule.unlimited) :
    (Schema.ruleOver .declared (ElementDecl.rule .declared)).Leaves tracing e fun s =>
      ∀ slot ∈ s.children, slot.BlamedBy ((SchemaItem.rule .declared).run tracing) := by
  have hrule : (SchemaItem.rule .declared).run tracing =
      (SchemaItem.ruleOver .declared (ElementDecl.rule .declared)).run tracing :=
    funext fun c => withLevels_run level_schemaItemOver tracing c
  rw [hrule]
  exact .bind fun _ => .bind fun _ => .bind fun _ => .bind fun _ => .bind fun _ => .bind fun _ =>
    .bind fun _ => .bind fun _ => .bind fun _ => .bind fun _ =>
      (Rule.leaves_childrenOpt hlength).bind_pure

theorem isDrained_left_iff :
    (Schema.left tracing e).isDrained = true ↔ Schema.Admitted tracing e := by
  simp only [Rest.isDrained, Schema.left, Bool.and_eq_true, List.isEmpty_iff,
    List.filter_eq_nil_iff, Option.isNone_iff_eq_none, Bool.not_eq_true', Bool.not_eq_false]
  constructor
  · rintro ⟨⟨hattrs, hitems⟩, htext⟩
    exact ⟨htext, hattrs, fun c hc => Option.isSome_iff_ne_none.mpr (hitems c hc)⟩
  · rintro ⟨htext, hattrs, hitems⟩
    exact ⟨⟨hattrs, fun c hc => Option.isSome_iff_ne_none.mp (hitems c hc)⟩, htext⟩

theorem forall₂_filterMap_of_isSome {α β : Type} {f : α → Option β} {as : List α}
    (h : ∀ a ∈ as, (f a).isSome = true) :
    List.Forall₂ (fun a b => f a = some b) as (as.filterMap f) := by
  induction as with
  | nil => exact .nil
  | cons a as ih =>
    obtain ⟨ha, has⟩ := List.forall_mem_cons.mp h
    obtain ⟨b, hb⟩ := Option.isSome_iff_exists.mp ha
    rw [List.filterMap_cons_some hb]
    exact .cons hb (ih has)

/-- A rule that asks for another name says so. -/
theorem run_bind_matchName_of_ne {α : Type} {name : String} {next : Unit → Rule α}
    (h : e.name ≠ name) :
    ((Rule.matchName name >>= next).run tracing e).outcome =
      .error (.other s!"Element name is not {name}") := by
  have heval : (Rule.matchName name).eval tracing (.ofElement e) =
      ⟨.error (.other s!"Element name is not {name}"), .ofElement e, []⟩ := by
    show Run.after ((if e.name = name then pure () else Rule.fail _ : Rule Unit).eval tracing
      (.ofElement e)) [] = _
    rw [if_neg h]
    rfl
  refine Run.drained_eq_error_iff.mpr (Or.inl ?_)
  rw [Rule.eval_bind, heval]
  rfl

/-- A schema is read where everything in it may be there; its value comes from its parts;
and where it is not read everything that may not be there is reported. -/
theorem Schema.run_verdict (tracing : Tracing) {e : Element} (hattrs : e.attrs.Distinct)
    (hlength : e.children.length < Rule.unlimited) :
    (e.name ≠ "schema" →
      ((Schema.rule .declared).run tracing e).outcome =
        .error (.other "Element name is not schema")) ∧
    (e.name = "schema" →
      ((∃ s, ((Schema.rule .declared).run tracing e).outcome = .ok s) ↔
          Schema.Admitted tracing e) ∧
      (∀ s, ((Schema.rule .declared).run tracing e).outcome = .ok s →
          Schema.ValueOf tracing e s) ∧
      (∀ error, ((Schema.rule .declared).run tracing e).outcome = .error error →
          Schema.Reported tracing e error)) := by
  have hrun : (Schema.rule .declared).run tracing e =
      (Schema.ruleOver .declared (ElementDecl.rule .declared)).run tracing e :=
    withLevels_run level_schemaOver tracing e
  rw [hrun]
  refine ⟨run_bind_matchName_of_ne, fun hname => ?_⟩
  -- The rule has a value, and leaves what may not be there.
  obtain ⟨s, _, hread, rfl, hnamespace, hdoc, hitems⟩ :=
    ends_schema_left tracing hattrs (Nat.le_of_lt hlength) hname
  have hblind : (Schema.ruleOver .declared (ElementDecl.rule .declared)).Blind :=
    blind_schemaOver blind_element
  have hresult := Rule.result_eval tracing hblind (Scope.ofElement e)
  rw [Scope.rest_ofElement, hread, Run.result_eq_some_iff] at hresult
  obtain ⟨houtcome, hrest⟩ := hresult
  have hdrained : ((Schema.ruleOver .declared (ElementDecl.rule .declared)).eval tracing
      (.ofElement e)).scope.isDrained = true ↔ Schema.Admitted tracing e := by
    rw [← isDrained_left_iff, ← hrest, Run.isDrained_rest]
  have hok : ∀ s', ((Schema.ruleOver .declared (ElementDecl.rule .declared)).run tracing
      e).outcome = .ok s' ↔ s = s' ∧ Schema.Admitted tracing e := by
    intro s'
    rw [Rule.run, Run.drained_eq_ok_iff, houtcome, hdrained, Except.ok.injEq]
  refine ⟨?_, ?_, ?_⟩
  · simp only [hok, exists_eq_left']
  · intro s' hs'
    obtain ⟨rfl, hadmitted⟩ := (hok s').mp hs'
    refine ⟨hnamespace, hdoc, ?_⟩
    rw [hitems]
    exact forall₂_filterMap_of_isSome hadmitted.items
  · intro error herror
    rcases Run.drained_eq_error_iff.mp herror with herror | ⟨_, _, rfl⟩
    · rw [houtcome] at herror
      cases herror
    · have hblamed := leaves_schema_blamed (Nat.le_of_lt hlength) (.ofElement e)
        (Scope.sound_ofElement e) rfl s houtcome
      refine ⟨_, ?_, congrArg Rest.children hrest, hblamed⟩
      rw [Scope.remainder]
      congr 1
      · exact congrArg Rest.element hrest
      · exact congrArg Rest.attrs hrest
      · exact congrArg Rest.text hrest

/-- A schema with an attribute that no schema has, an item and a child that is none. -/
def flawed : Element :=
  ⟨"schema", [⟨"xmlns:xs", "urn:xs"⟩, ⟨"lang", "en"⟩, ⟨"version", "1"⟩],
    [⟨"import", [⟨"schemaLocation", "other.xsd"⟩], [], none⟩,
      ⟨"simpleType", [⟨"name", "shade"⟩],
        [⟨"restriction", [⟨"base", "colour"⟩], [], none⟩], none⟩,
      ⟨"group", [], [], none⟩], none⟩

theorem Schema.run_verdict_flawed :
    flawed.attrs.Distinct ∧ flawed.children.length < Rule.unlimited ∧
      ∃ slots, ((Schema.rule .declared).run .silent flawed).outcome =
          .error (.remainingItems flawed [⟨"lang", "en"⟩] slots none) ∧
        slots.map (·.element) = [⟨"group", [], [], none⟩] := by
  have hdistinct : flawed.attrs.Distinct := by
    unfold Attributes.Distinct
    decide
  have hlength : flawed.children.length < Rule.unlimited := by decide
  obtain ⟨hadmitted, _, hreported⟩ := (Schema.run_verdict .silent hdistinct hlength).2 rfl
  refine ⟨hdistinct, hlength, ?_⟩
  cases hr : ((Schema.rule .declared).run .silent flawed).outcome with
  | ok s => exact absurd (hadmitted.mp ⟨s, hr⟩).attrs (by decide)
  | error error =>
    obtain ⟨slots, rfl, hslots, _⟩ := hreported error hr
    exact ⟨slots, rfl, hslots⟩

end Xsd

end ElementGrammar
