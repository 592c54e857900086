import ElementGrammar.Proofs.Tree.Lines

/-!
# What a dump tells of a tree

A dump is a flat list of lines, in which what is inside an element stands two columns deeper
than its own line.  A name may look like a line itself, with columns in front of it, but the
mark of a line comes before the name: a dash or a hash sign after the columns.

* `Element.LooksLike` is that two trees have the same form, with elements at the same places
  that are shown the same.
* `append_inj_of_head` cuts a list where the first of its members fails a condition.  The lines
  inside an element are indented and the line of the next element is not, so this finds where an
  element ends.
* `Element.linesOfAll_inj` is the induction over two lists of trees at once, and
  `Element.lines_eq_iff_looksLike` is that a dump says how a tree looks and nothing else.
-/

namespace ElementGrammar

/-! ## Where a run of lines ends -/

/-- A list is cut in one way only where what comes before the cut satisfies a condition and the
first after it does not. -/
theorem append_inj_of_head {α : Type} {p : α → Prop} {as bs as' bs' : List α}
    (has : ∀ x ∈ as, p x) (has' : ∀ x ∈ as', p x) (hbs : ∀ x ∈ bs.head?, ¬p x)
    (hbs' : ∀ x ∈ bs'.head?, ¬p x) (h : as ++ bs = as' ++ bs') : as = as' ∧ bs = bs' := by
  rcases List.append_eq_append_iff.mp h with ⟨between, rfl, rfl⟩ | ⟨between, rfl, rfl⟩
  · cases between with
    | nil => simp
    | cons x between => exact absurd (has' x (by simp)) (hbs x (by simp))
  · cases between with
    | nil => simp
    | cons x between => exact absurd (has x (by simp)) (hbs' x (by simp))

namespace Element

/-! ## Lines and their marks -/

theorem heading_inj {a b : Element} (h : a.heading = b.heading) : a.intro = b.intro :=
  (String.append_right_inj "- ").mp h

theorem indented_injective : Function.Injective indented := by
  intro line line' h
  exact (String.append_right_inj "  ").mp h

theorem textLine_inj {text text' : String} (h : textLine text = textLine text') :
    formatText text = formatText text' :=
  (String.append_right_inj "  # ").mp h

/-- The line of a text is indented, with its mark after that. -/
theorem textLine_eq_indented (text : String) :
    textLine text = indented ("# " ++ formatText text) := by
  have hmark : "  # " = "  " ++ "# " := by decide
  rw [textLine, hmark, String.append_assoc, indented]

/-- The line of an element is not indented. -/
theorem heading_ne_indented (e : Element) (line : String) : e.heading ≠ indented line := by
  intro h
  have hfirst := congrArg (fun s => s.toList.head?) h
  simp [heading, indented] at hfirst

/-- The line of a text inside an element is not that of an element inside it. -/
theorem textLine_ne_indented_heading (text : String) (e : Element) :
    textLine text ≠ indented e.heading := by
  rw [textLine_eq_indented]
  intro h
  have hmark := congrArg (fun s => s.toList.head?) (indented_injective h)
  simp [heading] at hmark

/-! ## Trees that look alike -/

/-- The lines of an element after the first. -/
def inner (e : Element) : List String :=
  match e.text with
  | some text => [textLine text]
  | none => (linesOfAll e.children).map indented

theorem lines_eq_heading_cons (e : Element) : e.lines = e.heading :: e.inner :=
  lines_eq_cons e

theorem linesOfAll_cons (e : Element) (es : List Element) :
    linesOfAll (e :: es) = e.heading :: (e.inner ++ linesOfAll es) := by
  rw [linesOfAll, lines_eq_heading_cons, List.cons_append]

/-- Two elements that are shown the same, with a text in both or in neither, and with as many
children, which look alike in their order. -/
inductive LooksLike : Element → Element → Prop where
  | intro {a b : Element} (intro : a.intro = b.intro)
    (text : a.text.map formatText = b.text.map formatText)
    (inside : List.Forall₂ LooksLike a.children b.children) : LooksLike a b

/-- The lines inside an element are indented. -/
theorem indented_of_mem_inner {e : Element} : ∀ line ∈ e.inner, ∃ l, line = indented l := by
  intro line hline
  unfold inner at hline
  cases htext : e.text with
  | some text =>
    rw [htext] at hline
    rw [List.mem_singleton.mp hline]
    exact ⟨_, textLine_eq_indented text⟩
  | none =>
    rw [htext] at hline
    obtain ⟨l, _, rfl⟩ := List.mem_map.mp hline
    exact ⟨l, rfl⟩

/-- The first line of some elements is not indented. -/
theorem not_indented_of_head {es : List Element} :
    ∀ line ∈ (linesOfAll es).head?, ¬∃ l, line = indented l := by
  cases es with
  | nil => simp [linesOfAll]
  | cons e es =>
    rintro line hline ⟨l, rfl⟩
    rw [linesOfAll_cons, List.head?_cons, Option.mem_some_iff] at hline
    exact e.heading_ne_indented l hline

/-- The line of a text is not the only one that some elements have. -/
theorem textLine_ne_indented_lines (text : String) (es : List Element) :
    [textLine text] ≠ (linesOfAll es).map indented := by
  cases es with
  | nil => simp [linesOfAll]
  | cons e es =>
    intro h
    rw [linesOfAll_cons, List.map_cons] at h
    injection h with h
    exact textLine_ne_indented_heading text e h

/-- What is inside two elements looks alike where it has the same lines, if the same holds for
their children. -/
theorem inner_inj {a b : Element} (ha : a.Built) (hb : b.Built)
    (hchildren : linesOfAll a.children = linesOfAll b.children →
      List.Forall₂ LooksLike a.children b.children) (h : a.inner = b.inner) :
    a.text.map formatText = b.text.map formatText ∧
      List.Forall₂ LooksLike a.children b.children := by
  unfold inner at h
  cases htext : a.text with
  | some text =>
    cases htext' : b.text with
    | some text' =>
      rw [htext, htext'] at h
      injection h with h
      rw [ha.children_eq_nil htext, hb.children_eq_nil htext']
      exact ⟨congrArg some (textLine_inj h), .nil⟩
    | none =>
      rw [htext, htext'] at h
      exact absurd h (textLine_ne_indented_lines text b.children)
  | none =>
    cases htext' : b.text with
    | some text' =>
      rw [htext, htext'] at h
      exact absurd h.symm (textLine_ne_indented_lines text' a.children)
    | none =>
      rw [htext, htext'] at h
      exact ⟨rfl, hchildren (List.map_injective_iff.mpr indented_injective h)⟩

/-- Elements that are dumped the same look alike.  The induction is on the first list: the lines
of an element end where the next line is not indented. -/
theorem linesOfAll_inj : ∀ {as bs : List Element}, (∀ a ∈ as, a.Built) → (∀ b ∈ bs, b.Built) →
    linesOfAll as = linesOfAll bs → List.Forall₂ LooksLike as bs
  | [], [], _, _, _ => .nil
  | [], b :: bs, _, _, h => by
    rw [linesOfAll_cons] at h
    cases h
  | a :: as, [], _, _, h => by
    rw [linesOfAll_cons] at h
    cases h
  | ⟨name, attrs, children, text⟩ :: as, b :: bs, ha, hb, h => by
    obtain ⟨hbuilt, has⟩ := List.forall_mem_cons.mp ha
    obtain ⟨hbuilt', hbs⟩ := List.forall_mem_cons.mp hb
    rw [linesOfAll_cons, linesOfAll_cons] at h
    injection h with hheading h
    obtain ⟨hinner, hrest⟩ := append_inj_of_head indented_of_mem_inner indented_of_mem_inner
      not_indented_of_head not_indented_of_head h
    have hchildren (h : linesOfAll children = linesOfAll b.children) :
        List.Forall₂ LooksLike children b.children :=
      linesOfAll_inj hbuilt.inside hbuilt'.inside h
    obtain ⟨htext, hinside⟩ := inner_inj hbuilt hbuilt' hchildren hinner
    exact .cons (.intro (heading_inj hheading) htext hinside) (linesOfAll_inj has hbs hrest)

/-- Texts that are shown the same and children with the same lines are the same inside. -/
theorem inner_congr {a b : Element} (htext : a.text.map formatText = b.text.map formatText)
    (hchildren : linesOfAll a.children = linesOfAll b.children) : a.inner = b.inner := by
  have hinner (e : Element) : e.inner =
      match e.text.map formatText with
      | some shown => ["  # " ++ shown]
      | none => (linesOfAll e.children).map indented := by
    unfold inner
    cases e.text <;> rfl
  rw [hinner, hinner, htext, hchildren]

mutual

theorem LooksLike.lines_eq : ∀ {a b : Element}, a.LooksLike b → a.lines = b.lines
  | ⟨_, _, _, _⟩, _, .intro hintro htext hinside => by
    have hinner := inner_congr htext (linesOfAll_eq_of_looksLike hinside)
    rw [lines_eq_heading_cons, lines_eq_heading_cons, heading, heading, hintro, hinner]

theorem linesOfAll_eq_of_looksLike : ∀ {as bs : List Element}, List.Forall₂ LooksLike as bs →
    linesOfAll as = linesOfAll bs
  | [], [], .nil => rfl
  | a :: as, b :: bs, .cons h hs => by
    rw [linesOfAll, linesOfAll, h.lines_eq, linesOfAll_eq_of_looksLike hs]

end

/-- A dump says how a tree looks and nothing else: two trees have the same lines where they have
the same form, elements at the same places are shown the same, and the same elements have a text,
which is shown the same.  This holds whatever is in the names, the attributes and the texts. -/
theorem lines_eq_iff_looksLike {a b : Element} (ha : a.Built) (hb : b.Built) :
    a.lines = b.lines ↔ a.LooksLike b := by
  refine ⟨fun h => ?_, LooksLike.lines_eq⟩
  have hlines : linesOfAll [a] = linesOfAll [b] := by
    rw [linesOfAll, linesOfAll, h, linesOfAll, linesOfAll]
  have hall : List.Forall₂ LooksLike [a] [b] :=
    linesOfAll_inj (List.forall_mem_singleton.mpr ha) (List.forall_mem_singleton.mpr hb) hlines
  cases hall with
  | cons hlooks _ => exact hlooks

/-- A card with two attributes and a note. -/
def card : Element :=
  ⟨"card", [⟨"k", "1"⟩, ⟨"l", "2"⟩], [⟨"# note", [], [], some "on top"⟩, ⟨"- note", [], [], none⟩],
    none⟩

/-- A card with one attribute, whose value looks like the end of one and another. -/
def cardOfOne : Element :=
  ⟨"card", [⟨"k", "1,l=2"⟩], [⟨"# note", [], [], some " on top "⟩, ⟨"- note", [], [], none⟩], none⟩

/-- A card with one child, whose name looks like the lines of two. -/
def cardOfLines : Element :=
  ⟨"card", [⟨"k", "1"⟩, ⟨"l", "2"⟩],
    [⟨"# note\n    # on top\n  - - note", [], [], none⟩], none⟩

/-- Two cards have the same lines and are not the same, but they look alike.  Two others do not,
though their dumps are the same text. -/
theorem lines_eq_iff_looksLike_cards :
    (card.Built ∧ cardOfOne.Built ∧ card ≠ cardOfOne ∧ card.LooksLike cardOfOne) ∧
      cardOfLines.Built ∧ card.dump = cardOfLines.dump ∧ ¬card.LooksLike cardOfLines := by
  have hcard : card.Built := Proper.toBuilt (by decide)
  have hone : cardOfOne.Built := Proper.toBuilt (by decide)
  have hlines : cardOfLines.Built := Proper.toBuilt (by decide)
  have hsame : card.lines = cardOfOne.lines := by decide
  have hother : card.lines ≠ cardOfLines.lines := by decide
  exact ⟨⟨hcard, hone, by decide, (lines_eq_iff_looksLike hcard hone).mp hsame⟩, hlines, by decide,
    (lines_eq_iff_looksLike hcard hlines).not.mp hother⟩

end Element

end ElementGrammar
