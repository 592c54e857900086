import ElementGrammar.Proofs.Tree.Preorder
import ElementGrammar.Proofs.Xml.Opening

/-!
# The document grammar

What the events of a document must be like for it to have a tree, and what the tree
is, said of the events alone: nothing here builds an element or keeps a stack.

* `placed` gives each event with the number of elements around it, and
  `Event.Allowed` says what may stand there.
* `openings` lists the opening tags in document order, each with its depth and with
  the events directly inside its element (`direct`).  `Opening.WellFormed` says which
  of them open an element, and `Opening.node?` which one.
* `IsDocument` puts these together.

`WellNested` is what the events of any bytes satisfy (`transcribe_wellNested`), whether
they have a tree or not: a closing tag names the innermost open element.
-/

namespace ElementGrammar.Xml

/-! ## Depth -/

namespace Event

/-- The number of open elements after an event, where `depth` are open before it. -/
def after (depth : Nat) : Event → Nat
  | .startTag _ => depth + 1
  | .endTag _ => depth - 1
  | _ => depth

/-- Whether an event is an opening tag. -/
def isOpening : Event → Bool
  | .startTag _ | .emptyTag _ => true
  | _ => false

/-- The unescaped text of a text event. -/
def text? : Event → Option String
  | .text bytes => (readText bytes).toOption
  | _ => none

/-- What may stand inside `depth` elements.  Texts outside of all elements are blank. -/
def Allowed (depth : Nat) : Event → Prop
  | .cdata _ => False
  | .instruction _ => depth = 0
  | .text bytes => ∃ s, readText bytes = .ok s ∧ (depth = 0 → Text.isBlankText s)
  | _ => True

@[simp]
theorem after_startTag (depth : Nat) (tag : Tag) : after depth (.startTag tag) = depth + 1 := rfl

@[simp]
theorem after_endTag (depth : Nat) (name : List UInt8) :
    after depth (.endTag name) = depth - 1 := rfl

@[simp]
theorem after_emptyTag (depth : Nat) (tag : Tag) : after depth (.emptyTag tag) = depth := rfl

@[simp]
theorem allowed_startTag (depth : Nat) (tag : Tag) : Allowed depth (.startTag tag) := trivial

@[simp]
theorem allowed_endTag (depth : Nat) (name : List UInt8) : Allowed depth (.endTag name) :=
  trivial

@[simp]
theorem allowed_emptyTag (depth : Nat) (tag : Tag) : Allowed depth (.emptyTag tag) := trivial

end Event

/-- The events with the number of elements that are open at each. -/
def placed : Nat → List (Located Event) → List (Nat × Event)
  | _, [] => []
  | depth, e :: es => (depth, e.item) :: placed (e.item.after depth) es

/-- The number of elements that are open after the last event. -/
def depthAfter (depth : Nat) (events : List (Located Event)) : Nat :=
  events.foldl (fun depth e => e.item.after depth) depth

theorem depthAfter_cons (depth : Nat) (e : Located Event) (es : List (Located Event)) :
    depthAfter depth (e :: es) = depthAfter (e.item.after depth) es := rfl

/-- Each closing tag names the innermost open element.  The names are those of the
open elements, innermost first. -/
def WellNested : List (List UInt8) → List (Located Event) → Prop
  | _, [] => True
  | names, e :: es =>
    (∀ name, e.item = .endTag name → names.head? = some name) ∧
      WellNested (namesAfter names e.item) es

/-! ## Opening tags -/

/-- The events directly inside an element, up to its closing tag, where `inner`
elements inside of it are open. -/
def direct : (inner : Nat) → List (Located Event) → List Event
  | _, [] => []
  | 0, ⟨_, .endTag _⟩ :: _ => []
  | 0, e :: es => e.item :: direct (e.item.after 0) es
  | inner + 1, e :: es => direct (e.item.after (inner + 1)) es

/-- An opening tag inside `depth` elements, with the events directly inside its own. -/
structure Opening where
  depth : Nat
  tag : Tag
  inside : List Event

/-- The opening tags in document order. -/
def openings : Nat → List (Located Event) → List Opening
  | _, [] => []
  | depth, ⟨_, .startTag tag⟩ :: es => ⟨depth, tag, direct 0 es⟩ :: openings (depth + 1) es
  | depth, ⟨_, .emptyTag tag⟩ :: es => ⟨depth, tag, []⟩ :: openings depth es
  | depth, e :: es => openings (e.item.after depth) es

namespace Opening

/-- The texts directly inside the element. -/
def texts (o : Opening) : List String :=
  o.inside.filterMap Event.text?

/-- Whether the element has a child element. -/
def isParent (o : Opening) : Bool :=
  o.inside.any Event.isOpening

/-- The text of the element: what stands directly inside of it, where anything does.
An element with children has none. -/
def text (o : Opening) : Option String :=
  if o.isParent ∨ o.texts = [] then none else some (String.join o.texts)

/-- The element without its children, where its name and its attributes can be had. -/
def node? (o : Opening) : Option Node :=
  match o.tag.localName?, o.tag.attributes? with
  | some name, some attrs => some ⟨o.depth, name, attrs, o.text⟩
  | _, _ => none

/-- A tag that opens an element. -/
structure WellFormed (o : Opening) : Prop where
  name : ∃ name, o.tag.localName? = some name ∧ name ≠ ""
  attributes : ∃ attrs, o.tag.attributes? = some attrs ∧ (attrs.map Attribute.name).Nodup
  unmixed : o.isParent → Text.isBlankText (String.join o.texts)

end Opening

/-! ## Documents -/

/-- Events that have a tree. -/
structure IsDocument (events : List (Located Event)) : Prop where
  allowed : ∀ p ∈ placed 0 events, p.2.Allowed p.1
  tags : ∀ o ∈ openings 0 events, o.WellFormed
  /-- One opening tag stands outside of all elements. -/
  root : (openings 0 events).countP (·.depth = 0) = 1
  closed : depthAfter 0 events = 0

/-! ## The events of bytes -/

theorem transcribe_of_ended {position : Nat} {names : List (List UInt8)} {bytes : List UInt8}
    (h : nextEvent names bytes = .ended) : transcribe position names bytes = ⟨[], none⟩ := by
  rw [transcribe]
  split <;> simp_all

theorem transcribe_of_event {position : Nat} {names : List (List UInt8)} {bytes rest : List UInt8}
    {event : Event} {events : List (Located Event)} {fault : Option (Located Fault)}
    (h : nextEvent names bytes = .event event rest)
    (hrest : transcribe (position + (bytes.length - rest.length)) (namesAfter names event) rest =
      ⟨events, fault⟩) :
    transcribe position names bytes = ⟨⟨position, event⟩ :: events, fault⟩ := by
  rw [transcribe]
  split <;> simp_all

/-- An event is cut by one of the kinds of markup, or it is a text. -/
theorem nextEvent_cases {names : List (List UInt8)} {bytes rest : List UInt8} {event : Event}
    (h : nextEvent names bytes = .event event rest) :
    (∃ markup, bangStep markup = .event event rest) ∨
      (∃ markup, closingStep names markup = .event event rest) ∨
      (∃ markup, questionStep markup = .event event rest) ∨
      (∃ markup, openingStep markup = .event event rest) ∨ ∃ text, event = .text text := by
  unfold nextEvent at h
  split at h
  · cases h
  · split at h
    · unfold markupStep at h
      split at h
      · cases h
      · split at h
        · exact Or.inl ⟨_, h⟩
        · split at h
          · exact Or.inr (Or.inl ⟨_, h⟩)
          · split at h
            · exact Or.inr (Or.inr (Or.inl ⟨_, h⟩))
            · exact Or.inr (Or.inr (Or.inr (Or.inl ⟨_, h⟩)))
    · injection h with h _
      exact Or.inr (Or.inr (Or.inr (Or.inr ⟨_, h.symm⟩)))

theorem bangStep_ne_endTag {bytes rest name : List UInt8} :
    bangStep bytes ≠ .event (.endTag name) rest := by
  unfold bangStep cdataStep commentStep doctypeStep
  dsimp only
  intro h
  repeat' split at h
  all_goals cases h

theorem questionStep_ne_endTag {bytes rest name : List UInt8} :
    questionStep bytes ≠ .event (.endTag name) rest := by
  unfold questionStep
  dsimp only
  intro h
  repeat' split at h
  all_goals cases h

theorem openingStep_ne_endTag {bytes rest name : List UInt8} :
    openingStep bytes ≠ .event (.endTag name) rest := by
  unfold openingStep
  dsimp only
  intro h
  split at h <;> cases h

theorem closingStep_endTag {names : List (List UInt8)} {bytes rest name : List UInt8}
    (h : closingStep names bytes = .event (.endTag name) rest) : names.head? = some name := by
  unfold closingStep at h
  dsimp only at h
  split at h
  · cases h
  · split at h
    · injection h with h _
      injection h with h
      rw [h, List.head?_cons]
    · cases h

/-- A closing tag is cut only where it names the innermost open element. -/
theorem nextEvent_endTag {names : List (List UInt8)} {bytes rest name : List UInt8}
    (h : nextEvent names bytes = .event (.endTag name) rest) : names.head? = some name := by
  rcases nextEvent_cases h with hbang | hclosing | hquestion | hopening | htext
  · obtain ⟨_, hbang⟩ := hbang
    exact absurd hbang bangStep_ne_endTag
  · obtain ⟨_, hclosing⟩ := hclosing
    exact closingStep_endTag hclosing
  · obtain ⟨_, hquestion⟩ := hquestion
    exact absurd hquestion questionStep_ne_endTag
  · obtain ⟨_, hopening⟩ := hopening
    exact absurd hopening openingStep_ne_endTag
  · obtain ⟨_, htext⟩ := htext
    cases htext

/-- The events of any bytes are well-nested. -/
theorem transcribe_wellNested (position : Nat) (names : List (List UInt8)) (bytes : List UInt8) :
    WellNested names (transcribe position names bytes).events := by
  fun_induction transcribe position names bytes with
  | case1 | case2 => trivial
  | case3 position names bytes event rest hnext after ih =>
    refine ⟨fun name hname => ?_, ih⟩
    exact nextEvent_endTag (hnext.trans (congrArg (Step.event · rest) hname))

end ElementGrammar.Xml
