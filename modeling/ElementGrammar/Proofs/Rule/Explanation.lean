import Mathlib.Data.List.Forall2
import ElementGrammar.Proofs.Rule.Run
import ElementGrammar.Rule.Report

/-!
# Errors explain their elements

An error is a tree, and every part of it is about an element.
`ParseError.Explains` says when an error is a well-formed account of an element:
what it lists was there, in that order, and each error inside it explains the
element that it stands beside.

* `Scope.Shrinks` is what a run does to its scope: items leave, and the children
  that stay collect errors, each of which explains the child.  A scope is sound
  where it is what is left of its element.
* `Scope.remainder_explains` and `Scope.missingChild_explains` are the two errors
  that are made of a scope.
* `Rule.eval_explained` is the induction over rules.  It carries both at once, the
  errors that the scope collects and the one that the run ends with.
-/

namespace ElementGrammar

variable {α β : Type}

/-! ## Well-formed errors -/

namespace ParseError

/-- An error that is a well-formed account of an element. -/
inductive Explains : ParseError → Element → Prop where
  | other (message : String) (x : Element) : Explains (.other message) x
  | remainingItems {x : Element} {attrs : Attributes} {children : List (Slot ParseError)}
      {text : Option String} (left : attrs ≠ [] ∨ children ≠ [] ∨ text ≠ none)
      (attrs_sublist : attrs.Sublist x.attrs)
      (children_sublist : (children.map (·.element)).Sublist x.children)
      (text_eq : text = none ∨ text = x.text)
      (errors : ∀ slot ∈ children, ∀ e ∈ slot.errors, Explains e slot.element) :
      Explains (.remainingItems x attrs children text) x
  | noMatchingChild {x : Element} {tried : List (Blame ParseError)}
      (children_sublist : (tried.map (·.child)).Sublist x.children)
      (errors : ∀ blame ∈ tried, Explains blame.error blame.child) :
      Explains (.noMatchingChild x tried) x
  | noMatchingVariant {x : Element} {tried : List ParseError}
      (errors : ∀ e ∈ tried, Explains e x) : Explains (.noMatchingVariant x tried) x

/-- An error that is another one or inside it, at any depth. -/
inductive Within : ParseError → ParseError → Prop where
  | self (e : ParseError) : Within e e
  | remainingItems {d e : ParseError} {x : Element} {attrs : Attributes}
      {children : List (Slot ParseError)} {text : Option String} {slot : Slot ParseError}
      (hslot : slot ∈ children) (he : e ∈ slot.errors) (hd : Within d e) :
      Within d (.remainingItems x attrs children text)
  | noMatchingChild {d : ParseError} {x : Element} {tried : List (Blame ParseError)}
      {blame : Blame ParseError} (hblame : blame ∈ tried) (hd : Within d blame.error) :
      Within d (.noMatchingChild x tried)
  | noMatchingVariant {d e : ParseError} {x : Element} {tried : List ParseError}
      (he : e ∈ tried) (hd : Within d e) : Within d (.noMatchingVariant x tried)

/-- Every error inside a well-formed one is well-formed, for an element of its
own. -/
theorem Within.explains {d e : ParseError} (hd : d.Within e) {x : Element}
    (h : e.Explains x) : ∃ y, d.Explains y := by
  induction hd generalizing x with
  | self => exact ⟨x, h⟩
  | remainingItems hslot he _ ih =>
    cases h with
    | remainingItems _ _ _ _ errors => exact ih (errors _ hslot _ he)
  | noMatchingChild hblame _ ih =>
    cases h with
    | noMatchingChild _ errors => exact ih (errors _ hblame)
  | noMatchingVariant he _ ih =>
    cases h with
    | noMatchingVariant errors => exact ih (errors _ he)

/-- A headline names something where something is left. -/
theorem remainderCounts_ne_nil {attrs : Attributes} {children : List (Slot ParseError)}
    {text : Option String} (h : attrs ≠ [] ∨ children ≠ [] ∨ text ≠ none) :
    remainderCounts attrs children text ≠ [] := by
  unfold remainderCounts
  rcases h with h | h | h
  · simp [h]
  · simp [h]
  · simp [Option.isSome_iff_ne_none.mpr h]

end ParseError

/-! ## What a run does to its scope -/

/-- A child with more errors, all of which explain it. -/
def Slot.GrownFrom (slot' slot : Slot ParseError) : Prop :=
  slot'.element = slot.element ∧
    ∃ added, slot'.errors = slot.errors ++ added ∧ ∀ e ∈ added, e.Explains slot.element

namespace Slot.GrownFrom

theorem refl (slot : Slot ParseError) : slot.GrownFrom slot :=
  ⟨rfl, [], (List.append_nil _).symm, by simp⟩

theorem trans {a b c : Slot ParseError} (hab : a.GrownFrom b) (hbc : b.GrownFrom c) :
    a.GrownFrom c := by
  obtain ⟨hab, added, ha, hadded⟩ := hab
  obtain ⟨hbc, added', hb, hadded'⟩ := hbc
  refine ⟨hab.trans hbc, added' ++ added, ?_, ?_⟩
  · rw [ha, hb, List.append_assoc]
  · intro e he
    rcases List.mem_append.mp he with he | he
    · exact hadded' e he
    · exact hbc ▸ hadded e he

theorem withError {slot : Slot ParseError} {e : ParseError} (h : e.Explains slot.element) :
    (slot.withError e).GrownFrom slot :=
  ⟨rfl, [e], rfl, by simpa using h⟩

instance : Std.Refl Slot.GrownFrom := ⟨refl⟩

instance : IsTrans (Slot ParseError) Slot.GrownFrom := ⟨fun _ _ _ => trans⟩

end Slot.GrownFrom

/-- Children that have grown are the same elements, in order. -/
theorem Slot.elements_sublist {slots' slots : List (Slot ParseError)}
    (h : List.SublistForall₂ Slot.GrownFrom slots' slots) :
    (slots'.map (·.element)).Sublist (slots.map (·.element)) := by
  induction h with
  | nil => exact List.nil_sublist _
  | cons hslot _ ih =>
    rw [List.map_cons, List.map_cons, hslot.1]
    exact ih.cons_cons _
  | cons_right _ ih => exact ih.cons _

/-- Children that have grown have explanations for errors if they did before. -/
theorem Slot.errors_explain {slots' slots : List (Slot ParseError)}
    (h : List.SublistForall₂ Slot.GrownFrom slots' slots)
    (hslots : ∀ slot ∈ slots, ∀ e ∈ slot.errors, e.Explains slot.element) :
    ∀ slot ∈ slots', ∀ e ∈ slot.errors, e.Explains slot.element := by
  induction h with
  | nil => simp
  | cons hslot _ ih =>
    obtain ⟨helement, added, herrors, hadded⟩ := hslot
    rw [List.forall_mem_cons] at hslots ⊢
    refine ⟨?_, ih hslots.2⟩
    intro e he
    rw [herrors, List.mem_append] at he
    rw [helement]
    exact he.elim (hslots.1 e) (hadded e)
  | cons_right _ ih => exact ih (List.forall_mem_cons.mp hslots).2

namespace Scope

/-- `s'` is what is left of `s`: some items are gone, and the children that stay
may have more errors. -/
structure Shrinks (s s' : Scope) : Prop where
  element : s'.element = s.element
  attrs : s'.attrs.Sublist s.attrs
  children : List.SublistForall₂ Slot.GrownFrom s'.children s.children
  text : s'.text = none ∨ s'.text = s.text

namespace Shrinks

theorem refl (s : Scope) : s.Shrinks s :=
  ⟨rfl, List.Sublist.refl _, Std.Refl.refl _, Or.inr rfl⟩

theorem trans {s s' s'' : Scope} (h : s.Shrinks s') (h' : s'.Shrinks s'') :
    s.Shrinks s'' where
  element := h'.element.trans h.element
  attrs := h'.attrs.trans h.attrs
  children := IsTrans.trans _ _ _ h'.children h.children
  text := by
    rcases h'.text with ht | ht
    · exact Or.inl ht
    · rw [ht]
      exact h.text

end Shrinks

theorem takeAttr_shrinks (s : Scope) (key : String) : s.Shrinks (s.takeAttr key).2 := by
  unfold takeAttr
  split
  · exact Shrinks.refl s
  · exact ⟨rfl, List.eraseP_sublist, Std.Refl.refl _, Or.inr rfl⟩

theorem dropAttrsFrom_shrinks (s : Scope) (start : String) :
    s.Shrinks (s.dropAttrsFrom start) :=
  ⟨rfl, List.filter_sublist, Std.Refl.refl _, Or.inr rfl⟩

theorem takeText_shrinks (s : Scope) : s.Shrinks s.takeText.2 :=
  ⟨rfl, List.Sublist.refl _, Std.Refl.refl _, Or.inl rfl⟩

theorem dropChildrenNamed_shrinks (s : Scope) (name : String) :
    s.Shrinks (s.dropChildrenNamed name) :=
  ⟨rfl, List.Sublist.refl _, List.filter_sublist.sublistForall₂, Or.inr rfl⟩

/-! ## Errors made of a scope -/

/-- A scope that is what is left of its element. -/
def Sound (s : Scope) : Prop :=
  (ofElement s.element).Shrinks s

theorem sound_ofElement (e : Element) : (ofElement e).Sound :=
  Shrinks.refl _

theorem Shrinks.sound {s s' : Scope} (h : s.Shrinks s') (hs : s.Sound) : s'.Sound := by
  unfold Sound
  rw [h.element]
  exact hs.trans h

/-- The children that are left are children of the element, in order. -/
theorem Sound.children_sublist {s : Scope} (hs : s.Sound) :
    (s.children.map (·.element)).Sublist s.element.children := by
  have hmap := Slot.elements_sublist hs.children
  simpa [ofElement, Function.comp_def] using hmap

/-- Every error of a child that is left explains the child. -/
theorem Sound.errors_explain {s : Scope} (hs : s.Sound) :
    ∀ slot ∈ s.children, ∀ e ∈ slot.errors, e.Explains slot.element :=
  Slot.errors_explain hs.children (by simp [ofElement])

/-- What is left of an element explains why the element was not read. -/
theorem remainder_explains {s : Scope} (hs : s.Sound) (h : s.isDrained = false) :
    s.remainder.Explains s.element := by
  refine .remainingItems ?_ hs.attrs hs.children_sublist hs.text hs.errors_explain
  by_contra hnone
  simp only [not_or, not_not] at hnone
  obtain ⟨hattrs, hchildren, htext⟩ := hnone
  rw [isDrained, hattrs, hchildren, htext] at h
  exact absurd h (by decide)

theorem ensureDrained_explains {s : Scope} (hs : s.Sound) {e : ParseError}
    (h : s.ensureDrained = .error e) : e.Explains s.element := by
  unfold ensureDrained at h
  split at h
  · cases h
  · rename_i hd
    injection h with h
    rw [← h]
    exact remainder_explains hs (by simpa using hd)

/-- Every child is blamed once at most. -/
theorem lastErrors_sublist (s : Scope) :
    (s.lastErrors.map (·.child)).Sublist (s.children.map (·.element)) := by
  unfold lastErrors
  induction s.children with
  | nil => exact List.Sublist.refl _
  | cons slot slots ih =>
    rw [List.filterMap_cons]
    cases slot.errors.getLast? with
    | none => exact ih.cons _
    | some e => exact ih.cons_cons _

/-- The last errors of the children explain why none of them is the one that was
asked for. -/
theorem missingChild_explains {s : Scope} (hs : s.Sound) :
    s.missingChild.Explains s.element := by
  have hlast : ∀ blame ∈ s.lastErrors, ∃ slot ∈ s.children,
      blame.child = slot.element ∧ blame.error ∈ slot.errors := by
    intro blame hblame
    obtain ⟨slot, hslot, hmap⟩ := List.mem_filterMap.mp hblame
    obtain ⟨e, he, rfl⟩ := Option.map_eq_some_iff.mp hmap
    exact ⟨slot, hslot, rfl, List.mem_of_getLast? he⟩
  refine .noMatchingChild ?_ ?_
  · exact (lastErrors_sublist s).trans hs.children_sublist
  · intro blame hblame
    obtain ⟨slot, hslot, hchild, he⟩ := hlast blame hblame
    rw [hchild]
    exact hs.errors_explain slot hslot _ he

end Scope

/-! ## Runs -/

/-- A run on `s` that leaves a part of it, and an explanation where it fails. -/
structure Run.Explained (r : Run α) (s : Scope) : Prop where
  shrinks : s.Shrinks r.scope
  error : ∀ e, r.outcome = .error e → e.Explains s.element

namespace Run.Explained

variable {s : Scope}

theorem of_ok {r : Run α} {value : α} (hr : r.outcome = .ok value)
    (h : s.Shrinks r.scope) : r.Explained s where
  shrinks := h
  error := by simp [hr]

theorem andThen {r : Run β} (hr : r.Explained s) {next : β → Scope → Run α}
    (hnext : ∀ value, (next value r.scope).Explained r.scope) :
    (r.andThen next).Explained s := by
  cases ho : r.outcome with
  | error e =>
    rw [Run.andThen_of_error ho]
    refine ⟨hr.shrinks, ?_⟩
    intro e' he
    cases he
    exact hr.error e ho
  | ok value =>
    rw [Run.andThen_of_ok ho]
    refine ⟨hr.shrinks.trans (hnext value).shrinks, ?_⟩
    intro e he
    rw [← hr.shrinks.element]
    exact (hnext value).error e he

theorem drained {r : Run α} (hs : s.Sound) (hr : r.Explained s) : r.drained.Explained s where
  shrinks := by
    rw [Run.drained_scope]
    exact hr.shrinks
  error := by
    intro e he
    rcases Run.drained_eq_error_iff.mp he with he | ⟨_, hd, rfl⟩
    · exact hr.error e he
    · rw [← hr.shrinks.element]
      exact Scope.remainder_explains (hr.shrinks.sound hs) hd

end Run.Explained

namespace Scope

/-- Children that do not match stay, each with an explanation. -/
theorem scan_kept (tracing : Tracing) (parent : Element) {rule : Element → Run α}
    (h : ∀ x e, (rule x).outcome = .error e → e.Explains x) (quota : Nat)
    (slots : List (Slot ParseError)) :
    List.SublistForall₂ Slot.GrownFrom (scan tracing parent rule quota slots).kept slots := by
  induction slots generalizing quota with
  | nil => cases quota <;> exact .nil
  | cons slot slots ih =>
    cases quota with
    | zero => exact Std.Refl.refl _
    | succ quota =>
      cases hr : (rule slot.element).outcome with
      | ok value =>
        rw [scan_cons_of_ok hr]
        exact .cons_right (ih quota)
      | error e =>
        rw [scan_cons_of_error hr]
        exact .cons (Slot.GrownFrom.withError (h _ e hr)) (ih (quota + 1))

theorem tryVariants_explained {s : Scope} (tracing : Tracing) {tried : List ParseError}
    (htried : ∀ e ∈ tried, e.Explains s.element) {rules : List (Scope → Run α)}
    (h : ∀ rule ∈ rules, (rule s).Explained s) :
    (s.tryVariants tracing tried rules).Explained s := by
  induction rules generalizing tried with
  | nil =>
    refine ⟨Shrinks.refl s, ?_⟩
    intro e he
    cases he
    exact .noMatchingVariant htried
  | cons rule rules ih =>
    have hrule := h rule List.mem_cons_self
    cases hr : (rule s).outcome with
    | ok value =>
      rw [tryVariants_cons_of_ok hr]
      exact .of_ok rfl hrule.shrinks
    | error e =>
      rw [tryVariants_cons_of_error hr]
      have hall : ∀ e' ∈ tried ++ [e], e'.Explains s.element := by
        intro e' he'
        rcases List.mem_append.mp he' with he' | he'
        · exact htried e' he'
        · rw [List.mem_singleton.mp he']
          exact hrule.error e hr
      have hrest := ih hall fun r hr => h r (List.mem_cons_of_mem _ hr)
      exact ⟨hrest.shrinks, hrest.error⟩

end Scope

namespace Rule

/-- A rule takes items, adds explanations to children, and gives an explanation
where it fails. -/
theorem eval_explained (tracing : Tracing) (rule : Rule α) {s : Scope} (hs : s.Sound) :
    (rule.eval tracing s).Explained s := by
  induction rule generalizing s with
  | pure | element | scope => exact .of_ok rfl (Scope.Shrinks.refl s)
  | bind rule next ih ihNext =>
    have hrule := ih hs
    exact hrule.andThen fun value => ihNext value (hrule.shrinks.sound hs)
  | fail message =>
    refine ⟨Scope.Shrinks.refl s, ?_⟩
    intro e he
    cases he
    exact .other message s.element
  | takeAttr key => exact .of_ok rfl (s.takeAttr_shrinks key)
  | dropAttrsFrom start => exact .of_ok rfl (s.dropAttrsFrom_shrinks start)
  | takeText => exact .of_ok rfl s.takeText_shrinks
  | dropChildrenNamed name => exact .of_ok rfl (s.dropChildrenNamed_shrinks name)
  | ensureDrained =>
    exact ⟨Scope.Shrinks.refl s, fun e he => Scope.ensureDrained_explains hs he⟩
  | missingChild =>
    refine ⟨Scope.Shrinks.refl s, ?_⟩
    intro e he
    cases he
    exact Scope.missingChild_explains hs
  | childrenAtMost quota rule ih =>
    refine .of_ok rfl ⟨rfl, List.Sublist.refl _, Scope.scan_kept _ _ ?_ _ _, Or.inr rfl⟩
    intro x e he
    exact ((ih (Scope.sound_ofElement x)).drained (Scope.sound_ofElement x)).error e he
  | choice count rules ih =>
    refine Scope.tryVariants_explained tracing (by simp) ?_
    intro r hr
    obtain ⟨i, rfl⟩ := List.mem_ofFn.mp hr
    exact ih i hs
  | attempt rule ih => exact .of_ok rfl (ih hs).shrinks

/-- Every error of a run on an element is a well-formed account of the element,
and inside it no error that tells what is left has nothing to tell. -/
theorem run_error_explains (tracing : Tracing) (rule : Rule α) (e : Element)
    {error : ParseError} (h : (rule.run tracing e).outcome = .error error) :
    error.Explains e ∧
      ∀ x attrs children text,
        (ParseError.remainingItems x attrs children text).Within error →
          ParseError.remainderCounts attrs children text ≠ [] := by
  have hs := Scope.sound_ofElement e
  have herror : error.Explains e :=
    ((rule.eval_explained tracing hs).drained hs).error error h
  refine ⟨herror, ?_⟩
  intro x attrs children text hwithin
  obtain ⟨y, hy⟩ := hwithin.explains herror
  cases hy with
  | remainingItems left => exact ParseError.remainderCounts_ne_nil left

/-- An element with a child that is neither of two figures. -/
def figure : Element :=
  ⟨"shape", [], [⟨"triangle", [], [], none⟩], none⟩

/-- Takes a child that is one of two figures, if there is one. -/
def figureRule : Rule (Option Unit) :=
  .childOpt (.oneOf [.matchName "square", .matchName "circle"])

/-- The error of a child that was left holds the errors of two alternatives, and
each part explains the element that it is about. -/
theorem run_error_explains_figure :
    (figureRule.run .silent figure).outcome =
        .error (.remainingItems figure []
          [⟨⟨"triangle", [], [], none⟩,
            [.noMatchingVariant ⟨"triangle", [], [], none⟩
              [.other "Element name is not square", .other "Element name is not circle"]]⟩]
          none) ∧
      (ParseError.remainingItems figure []
        [⟨⟨"triangle", [], [], none⟩,
          [.noMatchingVariant ⟨"triangle", [], [], none⟩
            [.other "Element name is not square", .other "Element name is not circle"]]⟩]
        none).Explains figure :=
  ⟨rfl, (run_error_explains .silent figureRule figure rfl).1⟩

end Rule

end ElementGrammar
