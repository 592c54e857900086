import ElementGrammar.Proofs.Tree.Lines
import ElementGrammar.Proofs.Rule.Nesting

/-!
# Reports on single lines

A report quotes elements, attributes and messages as they are, and texts on one line.

* `ParseError.Plain` is that nothing inside an error breaks its line: no message, and no name
  or attribute of an element that is quoted.  The lines of the report are then single ones
  (`ParseError.Plain.oneLine_lines`).
* `ParseError.ShownAt` says which errors are inside another one, and at which column each of
  them is shown.  Its lines stand there one after the other
  (`ParseError.ShownAt.infix_lines`).
-/

namespace ElementGrammar

open Text (OneLine oneLine_append oneLine_intercalate oneLine_repr)

/-! ## Lines of an error -/

theorem Element.Plain.oneLine_intro {x : Element} (h : x.Plain) : OneLine x.intro := by
  cases h with
  | intro name attrs _ => exact (Element.oneLine_intro_iff x).mpr ⟨name, attrs⟩

theorem Element.Plain.attrs {x : Element} (h : x.Plain) : ∀ a ∈ x.attrs, a.Plain := by
  cases h with
  | intro _ attrs _ => exact attrs

theorem Element.Plain.inside {x : Element} (h : x.Plain) : ∀ c ∈ x.children, c.Plain := by
  cases h with
  | intro _ _ inside => exact inside

theorem oneLine_indentLines {lines : List String} (width : Nat)
    (h : ∀ line ∈ lines, OneLine line) : ∀ line ∈ indentLines width lines, OneLine line := by
  intro line hline
  obtain ⟨inner, hinner, rfl⟩ := List.mem_map.mp hline
  exact oneLine_append.mpr ⟨Text.oneLine_spaces width, h inner hinner⟩

namespace ParseError

/-- An error with nothing that breaks a line: what it says is on one line, the elements that it
is about are plain, and so is every error inside. -/
inductive Plain : ParseError → Prop where
  | other {message : String} (message_oneLine : OneLine message) : Plain (.other message)
  | remainingItems {x : Element} {attrs : Attributes} {children : List (Slot ParseError)}
      {text : Option String} (element : x.Plain) (attrs_plain : ∀ a ∈ attrs, a.Plain)
      (children_plain : ∀ slot ∈ children, slot.element.Plain)
      (errors : ∀ slot ∈ children, ∀ e ∈ slot.errors, Plain e) :
      Plain (.remainingItems x attrs children text)
  | noMatchingChild {x : Element} {tried : List (Blame ParseError)} (element : x.Plain)
      (children_plain : ∀ blame ∈ tried, blame.child.Plain)
      (errors : ∀ blame ∈ tried, Plain blame.error) : Plain (.noMatchingChild x tried)
  | noMatchingVariant {x : Element} {tried : List ParseError} (element : x.Plain)
      (errors : ∀ e ∈ tried, Plain e) : Plain (.noMatchingVariant x tried)

theorem oneLine_historyLines (j : Nat) {errors : List ParseError}
    (h : ∀ e ∈ errors, ∀ line ∈ e.lines, OneLine line) :
    ∀ line ∈ historyLines j errors, OneLine line := by
  induction errors generalizing j with
  | nil =>
    rw [historyLines]
    exact fun _ hline => absurd hline List.not_mem_nil
  | cons e es ih =>
    obtain ⟨he, hes⟩ := List.forall_mem_cons.mp h
    rw [historyLines, List.forall_mem_cons, List.forall_mem_append]
    refine ⟨?_, oneLine_indentLines 6 he, ih (j + 1) hes⟩
    exact oneLine_append.mpr ⟨by decide, oneLine_repr j⟩

theorem oneLine_slotLines (i : Nat) {slots : List (Slot ParseError)}
    (helements : ∀ slot ∈ slots, slot.element.Plain)
    (herrors : ∀ slot ∈ slots, ∀ e ∈ slot.errors, ∀ line ∈ e.lines, OneLine line) :
    ∀ line ∈ slotLines i slots, OneLine line := by
  induction slots generalizing i with
  | nil =>
    rw [slotLines]
    exact fun _ hline => absurd hline List.not_mem_nil
  | cons slot slots ih =>
    obtain ⟨helement, helements⟩ := List.forall_mem_cons.mp helements
    obtain ⟨herror, herrors⟩ := List.forall_mem_cons.mp herrors
    rw [slotLines, oneSlotLines, List.forall_mem_append, List.forall_mem_cons,
      List.forall_mem_cons]
    refine ⟨⟨?_, ?_, oneLine_historyLines 0 herror⟩, ih (i + 1) helements herrors⟩
    · exact oneLine_append.mpr ⟨oneLine_append.mpr ⟨by decide, oneLine_repr i⟩, by decide⟩
    · exact oneLine_append.mpr ⟨by decide, helement.oneLine_intro⟩

theorem oneLine_blameLines (i : Nat) {tried : List (Blame ParseError)}
    (hchildren : ∀ blame ∈ tried, blame.child.Plain)
    (herrors : ∀ blame ∈ tried, ∀ line ∈ blame.error.lines, OneLine line) :
    ∀ line ∈ blameLines i tried, OneLine line := by
  induction tried generalizing i with
  | nil =>
    rw [blameLines]
    exact fun _ hline => absurd hline List.not_mem_nil
  | cons blame tried ih =>
    obtain ⟨hchild, hchildren⟩ := List.forall_mem_cons.mp hchildren
    obtain ⟨herror, herrors⟩ := List.forall_mem_cons.mp herrors
    rw [blameLines, oneBlameLines, List.forall_mem_append, List.forall_mem_cons,
      List.forall_mem_cons]
    refine ⟨⟨?_, ?_, oneLine_indentLines 4 herror⟩, ih (i + 1) hchildren herrors⟩
    · exact oneLine_append.mpr ⟨oneLine_append.mpr ⟨by decide, oneLine_repr i⟩, by decide⟩
    · exact oneLine_append.mpr ⟨by decide, hchild.oneLine_intro⟩

theorem oneLine_variantLines (i : Nat) {tried : List ParseError}
    (h : ∀ e ∈ tried, ∀ line ∈ e.lines, OneLine line) :
    ∀ line ∈ variantLines i tried, OneLine line := by
  induction tried generalizing i with
  | nil =>
    rw [variantLines]
    exact fun _ hline => absurd hline List.not_mem_nil
  | cons e tried ih =>
    obtain ⟨he, htried⟩ := List.forall_mem_cons.mp h
    rw [variantLines, List.forall_mem_cons, List.forall_mem_append]
    refine ⟨?_, oneLine_indentLines 4 he, ih (i + 1) htried⟩
    exact oneLine_append.mpr ⟨oneLine_append.mpr ⟨by decide, oneLine_repr i⟩, by decide⟩

theorem oneLine_attributeLines {attrs : Attributes} (h : ∀ a ∈ attrs, a.Plain) :
    ∀ line ∈ attributeLines attrs, OneLine line := by
  unfold attributeLines
  split
  · exact fun _ hline => absurd hline List.not_mem_nil
  · rw [List.forall_mem_cons, List.forall_mem_singleton]
    refine ⟨by decide, oneLine_append.mpr ⟨by decide, ?_⟩⟩
    exact (Attributes.oneLine_text_iff attrs).mpr h

/-- What is left of a text is shown on one line, whatever it is. -/
theorem oneLine_textLines (text : Option String) : ∀ line ∈ textLines text, OneLine line := by
  cases text with
  | none => exact fun _ hline => absurd hline List.not_mem_nil
  | some text =>
    rw [textLines, List.forall_mem_cons, List.forall_mem_singleton]
    exact ⟨by decide, oneLine_append.mpr ⟨by decide, oneLine_formatText text⟩⟩

theorem oneLine_remainderCounts (attrs : Attributes) (children : List (Slot ParseError))
    (text : Option String) : ∀ part ∈ remainderCounts attrs children text, OneLine part := by
  have hcount : ∀ (n : Nat) (what : String) (isEmpty : Bool), OneLine what →
      ∀ part ∈ if isEmpty then [] else [n.repr ++ what], OneLine part := by
    intro n what isEmpty hwhat part hpart
    cases isEmpty with
    | true => exact absurd hpart List.not_mem_nil
    | false =>
      rw [List.mem_singleton.mp hpart]
      exact oneLine_append.mpr ⟨oneLine_repr n, hwhat⟩
  unfold remainderCounts
  rw [List.forall_mem_append, List.forall_mem_append]
  refine ⟨⟨hcount _ " attrs" _ (by decide), hcount _ " children" _ (by decide)⟩, ?_⟩
  cases text with
  | none => exact fun _ hpart => absurd hpart List.not_mem_nil
  | some text =>
    intro part hpart
    rw [List.mem_singleton.mp hpart]
    decide

/-- Nothing inside a plain error breaks a line of its report. -/
theorem Plain.oneLine_lines {e : ParseError} (h : e.Plain) : ∀ line ∈ e.lines, OneLine line := by
  induction h with
  | other hmessage =>
    rw [lines, List.forall_mem_singleton]
    exact hmessage
  | remainingItems element attrs_plain children_plain _ ih =>
    rw [lines, List.forall_mem_cons, List.forall_mem_cons, List.forall_mem_append,
      List.forall_mem_append]
    refine ⟨?_, element.oneLine_intro, ⟨oneLine_attributeLines attrs_plain,
      oneLine_slotLines 0 children_plain ih⟩, oneLine_textLines _⟩
    rw [oneLine_append, oneLine_append, oneLine_intercalate (by decide)]
    exact ⟨⟨by decide, oneLine_remainderCounts _ _ _⟩, by decide⟩
  | noMatchingChild element children_plain _ ih =>
    rw [lines, List.forall_mem_cons, List.forall_mem_cons]
    refine ⟨?_, element.oneLine_intro, oneLine_blameLines 0 children_plain ih⟩
    exact oneLine_append.mpr ⟨oneLine_append.mpr ⟨by decide, oneLine_repr _⟩, by decide⟩
  | noMatchingVariant element _ ih =>
    rw [lines, List.forall_mem_cons, List.forall_mem_cons]
    refine ⟨?_, element.oneLine_intro, oneLine_variantLines 0 ih⟩
    exact oneLine_append.mpr ⟨oneLine_append.mpr ⟨by decide, oneLine_repr _⟩, by decide⟩

theorem lines_ne_nil (e : ParseError) : e.lines ≠ [] := by
  cases e <;> rw [lines] <;> exact List.cons_ne_nil _ _

/-- Its report is shown on its lines. -/
theorem Plain.physicalLines_report {e : ParseError} (h : e.Plain) :
    Text.physicalLines e.report = e.lines :=
  Text.physicalLines_intercalate e.lines_ne_nil h.oneLine_lines

/-! ## Errors inside errors -/

/-- An error that is another one or inside it, with the columns in front of its lines in the
report of that. -/
inductive ShownAt : Nat → ParseError → ParseError → Prop where
  | self (e : ParseError) : ShownAt 0 e e
  | remainingItems {columns : Nat} {d e : ParseError} {x : Element} {attrs : Attributes}
      {children : List (Slot ParseError)} {text : Option String} {slot : Slot ParseError}
      (hslot : slot ∈ children) (he : e ∈ slot.errors) (hd : ShownAt columns d e) :
      ShownAt (columns + 6) d (.remainingItems x attrs children text)
  | noMatchingChild {columns : Nat} {d : ParseError} {x : Element}
      {tried : List (Blame ParseError)} {blame : Blame ParseError} (hblame : blame ∈ tried)
      (hd : ShownAt columns d blame.error) : ShownAt (columns + 4) d (.noMatchingChild x tried)
  | noMatchingVariant {columns : Nat} {d e : ParseError} {x : Element} {tried : List ParseError}
      (he : e ∈ tried) (hd : ShownAt columns d e) :
      ShownAt (columns + 4) d (.noMatchingVariant x tried)

/-- An error that holds what is listed in it holds what is inside that. -/
theorem Lists.exists_holds {columns : Nat} {d e s : ParseError} {a : Address}
    {label : List String} (h : e.Lists a label s)
    (hd : columns = 0 ∧ d = s ∨
      ∃ path first label, s.Holds path first label d ∧ columns = columnsAlong path) :
    ∃ path first label, e.Holds path first label d ∧ columns + a.columns = columnsAlong path := by
  rcases hd with ⟨rfl, rfl⟩ | ⟨path, first, label', hd, rfl⟩
  · exact ⟨[a], _, label, .listed h, rfl⟩
  · exact ⟨a :: path, _, label', .inside h hd, rfl⟩

/-- An error that is shown in another one is that, or can be found along some addresses. -/
theorem ShownAt.self_or_holds {columns : Nat} {d e : ParseError} (h : ShownAt columns d e) :
    columns = 0 ∧ d = e ∨
      ∃ path first label, e.Holds path first label d ∧ columns = columnsAlong path := by
  induction h with
  | self e => exact Or.inl ⟨rfl, rfl⟩
  | remainingItems hslot he _ ih =>
    obtain ⟨i, hi⟩ := List.mem_iff_getElem?.mp hslot
    obtain ⟨j, hj⟩ := List.mem_iff_getElem?.mp he
    exact Or.inr ((Lists.history hi hj).exists_holds ih)
  | noMatchingChild hblame _ ih =>
    obtain ⟨i, hi⟩ := List.mem_iff_getElem?.mp hblame
    exact Or.inr ((Lists.child hi).exists_holds ih)
  | noMatchingVariant he _ ih =>
    obtain ⟨i, hi⟩ := List.mem_iff_getElem?.mp he
    exact Or.inr ((Lists.variant hi).exists_holds ih)

/-- The lines of an error stand in the report of each error around it, one after the other,
with its columns in front of each. -/
theorem ShownAt.infix_lines {columns : Nat} {d e : ParseError} (h : ShownAt columns d e) :
    indentLines columns d.lines <:+: e.lines := by
  rcases h.self_or_holds with ⟨rfl, rfl⟩ | ⟨path, first, label, hd, rfl⟩
  · exact ⟨[], [], by rw [indentLines_zero, List.nil_append, List.append_nil]⟩
  · exact (List.suffix_append _ _).isInfix.trans hd.lines_eq.isInfix

end ParseError

end ElementGrammar
