import Mathlib.Logic.Relation
import ElementGrammar.Proofs.Xml.Placeless
import ElementGrammar.Proofs.Xml.Reading

/-!
# Documents that differ in their presentation

Much of how a document is written says nothing of its tree.  `Restyle` lists the changes that
are of this kind, each made at one place of the events, and `SameContent` is any number of them.

* `Reading.outcome` is what comes of a reading after the rest of the events.  A change is at one
  place, so what is read before it is the same, and it is enough to compare the outcomes from
  there (`Reading.outcome_append`).
* Most changes leave the outcome as it is: the two readings meet again right after the change.
  A tag that is spelled differently shows in the positions of errors
  (`Reading.outcome_respelled`).
* Blank text inside an element with children is only dropped when that element closes.  Up to
  there the two readings differ in one frame (`Frame.Blended`), and they are run side by side
  (`Reading.step_blended`, `Reading.outcome_blended`).

`read_sameContent` is the result, for documents with a fault as for those without.
-/

namespace ElementGrammar.Xml

/-! ## Changes -/

/-- Whether an event says nothing, wherever it stands. -/
def Event.isRemark : Event → Bool
  | .comment _ | .declaration _ | .doctype _ => true
  | _ => false

/-- Text that is blank once it is unescaped. -/
def IsBlank (bytes : List UInt8) : Prop :=
  ∃ s, readText bytes = .ok s ∧ Text.isBlankText s = true

/-- An event at another byte, and with another spelling of its tag.  A closing tag is spelled
as its opening tag, so it is enough to say how that one is. -/
inductive Respelled (Respells : Tag → Tag → Prop) : Located Event → Located Event → Prop where
  | moved {position position' : Nat} {item : Event} :
    Respelled Respells ⟨position, item⟩ ⟨position', item⟩
  | startTag {position position' : Nat} {tag tag' : Tag} (h : Respells tag tag') :
    Respelled Respells ⟨position, .startTag tag⟩ ⟨position', .startTag tag'⟩
  | emptyTag {position position' : Nat} {tag tag' : Tag} (h : Respells tag tag') :
    Respelled Respells ⟨position, .emptyTag tag⟩ ⟨position', .emptyTag tag'⟩
  | endTag {position position' : Nat} {name name' : List UInt8} :
    Respelled Respells ⟨position, .endTag name⟩ ⟨position', .endTag name'⟩

/-- A change of how the events of a document are written. -/
inductive Restyle (Respells : Tag → Tag → Prop) :
    List (Located Event) → List (Located Event) → Prop where
  | respelled {es es' : List (Located Event)} (h : List.Forall₂ (Respelled Respells) es es') :
    Restyle Respells es es'
  /-- An empty tag becomes an opening tag and a closing tag. -/
  | opened {before after : List (Located Event)} {position stop : Nat} {tag : Tag} :
    Restyle Respells (before ++ ⟨position, .emptyTag tag⟩ :: after)
      (before ++ ⟨position, .startTag tag⟩ :: ⟨stop, .endTag tag.name⟩ :: after)
  | remark {before after : List (Located Event)} {e : Located Event}
    (h : e.item.isRemark = true) : Restyle Respells (before ++ after) (before ++ e :: after)
  /-- A processing instruction is added outside of all elements. -/
  | instruction {before after : List (Located Event)} {position : Nat} {bytes : List UInt8}
    (outside : depthAfter 0 before = 0) :
    Restyle Respells (before ++ after) (before ++ ⟨position, .instruction bytes⟩ :: after)
  /-- A text inside an element is cut in two. -/
  | cut {before after : List (Located Event)} {position stop : Nat}
    {bytes first second : List UInt8} {s t : String} (inside : depthAfter 0 before ≠ 0)
    (whole : readText bytes = .ok (s ++ t)) (left : readText first = .ok s)
    (right : readText second = .ok t) :
    Restyle Respells (before ++ ⟨position, .text bytes⟩ :: after)
      (before ++ ⟨position, .text first⟩ :: ⟨stop, .text second⟩ :: after)
  | blankOutside {before after : List (Located Event)} {position : Nat} {bytes : List UInt8}
    (outside : depthAfter 0 before = 0) (blank : IsBlank bytes) :
    Restyle Respells (before ++ after) (before ++ ⟨position, .text bytes⟩ :: after)
  /-- Blank text is added directly inside an element that has a child, before the child or
  after it. -/
  | blankInside {outer inner after : List (Located Event)} {position start : Nat} {tag : Tag}
    {bytes : List UInt8} (nested : WellNested [] inner) (closed : depthAfter 0 inner = 0)
    (child : (direct 0 (inner ++ after)).any Event.isOpening = true) (blank : IsBlank bytes) :
    Restyle Respells (outer ++ ⟨start, .startTag tag⟩ :: (inner ++ after))
      (outer ++ ⟨start, .startTag tag⟩ :: (inner ++ ⟨position, .text bytes⟩ :: after))

/-- Well-nested events that differ by any number of changes. -/
def SameContent (Respells : Tag → Tag → Prop) :
    List (Located Event) → List (Located Event) → Prop :=
  Relation.EqvGen fun es es' => WellNested [] es ∧ WellNested [] es' ∧ Restyle Respells es es'

variable {fault : Option (Located Fault)} {f : TreeError → TreeError}
  {Respells : Tag → Tag → Prop} {e e' : Located Event} {es es' : List (Located Event)}

namespace Reading

/-! ## Outcomes -/

/-- What comes of a reading after the rest of the events and a fault, if there is one. -/
def outcome (fault : Option (Located Fault)) (r : Reading) (es : List (Located Event)) :
    Except TreeError Element :=
  (r.steps es).bind fun r' =>
    match fault with
    | none => r'.finish
    | some fault => .error (.xml fault.item fault.position)

theorem steps_cons (r : Reading) (e : Located Event) (es : List (Located Event)) :
    r.steps (e :: es) = (r.step e).bind (steps · es) := by
  rw [steps]
  cases r.step e <;> rfl

theorem outcome_cons (r : Reading) (e : Located Event) (es : List (Located Event)) :
    r.outcome fault (e :: es) = (r.step e).bind (outcome fault · es) := by
  unfold outcome
  rw [steps_cons]
  cases r.step e <;> rfl

theorem outcome_of_step {r r' : Reading} (h : r.step e = .ok r') :
    r.outcome fault (e :: es) = r'.outcome fault es := by
  rw [outcome_cons, h]
  rfl

theorem outcome_append (r : Reading) (es es' : List (Located Event)) :
    r.outcome fault (es ++ es') = (r.steps es).bind (outcome fault · es') := by
  induction es generalizing r with
  | nil => rfl
  | cons e es ih =>
    rw [List.cons_append, outcome_cons, steps_cons]
    cases r.step e with
    | error error => rfl
    | ok r' => exact ih r'

theorem length_steps {r r' : Reading} (h : r.steps es = .ok r') :
    r'.openFrames.length = depthAfter r.openFrames.length es := by
  induction es generalizing r with
  | nil =>
    injection h with h
    rw [h]
    rfl
  | cons e es ih =>
    rw [steps_cons] at h
    cases hstep : r.step e with
    | error error =>
      rw [hstep] at h
      cases h
    | ok next =>
      rw [hstep] at h
      rw [depthAfter_cons, ← length_step hstep]
      exact ih h

/-- Events have the same outcome after others where they have it from what is read of those. -/
theorem outcome_append_congr {before : List (Located Event)}
    (h : ∀ r : Reading, r.openFrames.length = depthAfter 0 before →
      r.outcome fault es = r.outcome fault es') :
    initial.outcome fault (before ++ es) = initial.outcome fault (before ++ es') := by
  rw [outcome_append, outcome_append]
  cases hsteps : initial.steps before with
  | error error => rfl
  | ok r => exact h r (length_steps hsteps)

/-! ## Tags that are spelled differently -/

theorem emptyTag_eq (r : Reading) (position : Nat) (tag : Tag) :
    r.emptyTag position tag =
      (Frame.ofTag position tag).bind fun frame => frame.close.bind r.complete := by
  unfold emptyTag
  cases Frame.ofTag position tag with
  | error error => rfl
  | ok frame =>
    dsimp only
    cases hclose : frame.close <;> simp [Except.bind, hclose]

theorem openTag_eq (r : Reading) (position : Nat) (tag : Tag) :
    r.openTag position tag = (Frame.ofTag position tag).bind fun frame =>
      .ok { r with openFrames := frame :: r.openFrames } := by
  unfold openTag
  cases Frame.ofTag position tag <;> rfl

theorem openTag_alike (hf : Forgets f Respells) (r : Reading) {position position' : Nat}
    {tag tag' : Tag} (h : Respells tag tag') :
    Alike f (r.openTag position tag) (r.openTag position' tag') := by
  rw [openTag_eq, openTag_eq]
  exact (hf.opening _ _ h).bind fun _ _ => rfl

theorem emptyTag_alike (hf : Forgets f Respells) (r : Reading) {position position' : Nat}
    {tag tag' : Tag} (h : Respells tag tag') :
    Alike f (r.emptyTag position tag) (r.emptyTag position' tag') := by
  rw [emptyTag_eq, emptyTag_eq]
  exact (hf.opening _ _ h).bind fun _ _ => rfl

/-- One event, where an element is open if the event closes one. -/
theorem step_respelled (hf : Forgets f Respells) {r : Reading} (h : Respelled Respells e e')
    (hopen : ∀ name, e.item = .endTag name → r.openFrames ≠ []) :
    Alike f (r.step e) (r.step e') := by
  cases h with
  | startTag htag => exact openTag_alike hf r htag
  | emptyTag htag => exact emptyTag_alike hf r htag
  | @endTag _ _ name name' =>
    obtain ⟨frames, root⟩ := r
    cases frames with
    | nil => exact absurd rfl (hopen name rfl)
    | cons frame outer => rfl
  | @moved position position' item =>
    cases item with
    | startTag tag => exact openTag_alike hf r (hf.same tag)
    | emptyTag tag => exact emptyTag_alike hf r (hf.same tag)
    | text bytes =>
      show Alike f (r.text _ _) (r.text _ _)
      unfold Reading.text
      split
      · exact congrArg Except.error (hf.place _ _ _)
      · rfl
    | _ => rfl

/-- Events that are spelled differently are read alike. -/
theorem outcome_respelled (hf : Forgets f Respells) {r : Reading} {names : List (List UInt8)}
    (h : List.Forall₂ (Respelled Respells) es es') (hnested : WellNested names es)
    (hnames : names.length = r.openFrames.length) :
    Alike f (r.outcome fault es) (r.outcome fault es') := by
  induction h generalizing r names with
  | nil => rfl
  | @cons e e' es es' he _ ih =>
    obtain ⟨hclosing, hnested⟩ := hnested
    have hopen : ∀ name, e.item = .endTag name → r.openFrames ≠ [] := by
      intro name hname hnil
      have hhead := hclosing name hname
      rw [hnil, List.length_nil, List.length_eq_zero_iff] at hnames
      rw [hnames] at hhead
      cases hhead
    rw [outcome_cons, outcome_cons]
    refine (step_respelled hf he hopen).bind fun r' hstep => ih hnested ?_
    rw [length_namesAfter, hnames, length_step hstep]

/-! ## Changes that are over at once -/

/-- The reading with one more element open. -/
def push (r : Reading) (frame : Frame) : Reading :=
  { r with openFrames := frame :: r.openFrames }

theorem closeTag_push (r : Reading) (frame : Frame) (name : List UInt8) :
    (r.push frame).closeTag name = frame.close.bind r.complete := by
  unfold closeTag
  dsimp only [push]
  cases frame.close <;> rfl

/-- An empty tag is an opening tag and a closing tag right after it. -/
theorem outcome_opened (r : Reading) (position stop : Nat) (tag : Tag) (name : List UInt8) :
    r.outcome fault (⟨position, .emptyTag tag⟩ :: es) =
      r.outcome fault (⟨position, .startTag tag⟩ :: ⟨stop, .endTag name⟩ :: es) := by
  rw [outcome_cons, outcome_cons]
  show (r.emptyTag position tag).bind _ = (r.openTag position tag).bind _
  rw [emptyTag_eq, openTag_eq]
  cases Frame.ofTag position tag with
  | error error => rfl
  | ok frame =>
    show (frame.close.bind r.complete).bind _ = outcome fault (r.push frame) _
    rw [outcome_cons, ← closeTag_push r frame name]
    rfl

theorem outcome_remark (r : Reading) (h : e.item.isRemark = true) :
    r.outcome fault es = r.outcome fault (e :: es) := by
  have hstep : r.step e = .ok r := by
    obtain ⟨position, item⟩ := e
    cases item <;> first | rfl | cases h
  rw [outcome_of_step hstep]

/-- What says nothing outside of all elements is passed over there. -/
theorem outcome_instruction {r : Reading} (h : r.openFrames.length = 0) (position : Nat)
    (bytes : List UInt8) :
    r.outcome fault es = r.outcome fault (⟨position, .instruction bytes⟩ :: es) := by
  obtain ⟨frames, root⟩ := r
  cases frames with
  | nil => rw [outcome_of_step (e := ⟨position, .instruction bytes⟩) rfl]
  | cons frame outer => cases h

theorem outcome_blankOutside {r : Reading} (h : r.openFrames.length = 0) (position : Nat)
    {bytes : List UInt8} (hblank : IsBlank bytes) :
    r.outcome fault es = r.outcome fault (⟨position, .text bytes⟩ :: es) := by
  obtain ⟨s, hread, hs⟩ := hblank
  obtain ⟨frames, root⟩ := r
  cases frames with
  | nil =>
    have hstep : step ⟨[], root⟩ ⟨position, .text bytes⟩ = .ok ⟨[], root⟩ := by
      show Reading.text ⟨[], root⟩ position bytes = _
      simp only [text, hread, hs, if_true]
    rw [outcome_of_step hstep]
  | cons frame outer => cases h

theorem step_text {frame : Frame} {outer : List Frame} {root : Option Element} {bytes : List UInt8}
    {s : String} (position : Nat) (hread : readText bytes = .ok s) :
    step ⟨frame :: outer, root⟩ ⟨position, .text bytes⟩ =
      .ok ⟨frame.addText s :: outer, root⟩ := by
  show Reading.text ⟨frame :: outer, root⟩ position bytes = _
  simp only [text, hread]

/-- The two parts of a text are put together again. -/
theorem outcome_cut {r : Reading} (h : r.openFrames.length ≠ 0) (position stop : Nat)
    {bytes first second : List UInt8} {s t : String} (whole : readText bytes = .ok (s ++ t))
    (left : readText first = .ok s) (right : readText second = .ok t) :
    r.outcome fault (⟨position, .text bytes⟩ :: es) =
      r.outcome fault (⟨position, .text first⟩ :: ⟨stop, .text second⟩ :: es) := by
  obtain ⟨frames, root⟩ := r
  cases frames with
  | nil => exact absurd rfl h
  | cons frame outer =>
    have hparts : (frame.addText s).addText t = frame.addText (s ++ t) := by
      simp [Frame.addText, String.append_assoc]
    rw [outcome_of_step (step_text position whole), outcome_of_step (step_text position left),
      outcome_of_step (step_text stop right), hparts]

end Reading

/-! ## Blank text beside children -/

/-- Frames that differ in their text, and are blank alike. -/
structure Frame.Blended (frame frame' : Frame) : Prop where
  name : frame'.name = frame.name
  attrs : frame'.attrs = frame.attrs
  children : frame'.children = frame.children
  blank : Text.isBlankText (frame'.text.getD "") = Text.isBlankText (frame.text.getD "")

theorem isBlankText_append (s t : String) :
    Text.isBlankText (s ++ t) = (Text.isBlankText s && Text.isBlankText t) := by
  simp [Text.isBlankText, String.toList_append]

namespace Frame

variable {frame frame' : Frame}

/-- With children an element closes by what it has but its text, unless that is not blank. -/
theorem close_of_children (h : frame.children ≠ []) :
    frame.close =
      if frame.name.isEmpty then .error .emptyName
      else if Text.isBlankText (frame.text.getD "") then
        .ok ⟨frame.name, frame.attrs, frame.children, none⟩
      else .error (.mixedContent frame.name) := by
  have hempty : frame.children.isEmpty = false := List.isEmpty_eq_false_iff.mpr h
  unfold close closingText Element.new?
  rw [hempty]
  cases frame.text with
  | none => rfl
  | some s => cases hs : Text.isBlankText s <;> simp [Option.filter, hs]

namespace Blended

theorem refl (frame : Frame) : Blended frame frame :=
  ⟨rfl, rfl, rfl, rfl⟩

theorem close_eq (h : Blended frame frame') (hchildren : frame.children ≠ []) :
    frame'.close = frame.close := by
  rw [close_of_children hchildren, close_of_children (h.children ▸ hchildren), h.name, h.attrs,
    h.children, h.blank]

theorem addText (h : Blended frame frame') (s : String) :
    Blended (frame.addText s) (frame'.addText s) := by
  refine ⟨h.name, h.attrs, h.children, ?_⟩
  show Text.isBlankText (_ ++ s) = Text.isBlankText (_ ++ s)
  rw [isBlankText_append, isBlankText_append, h.blank]

theorem addChild (h : Blended frame frame') (element : Element) :
    Blended (frame.addChild element) (frame'.addChild element) :=
  ⟨h.name, h.attrs, congrArg (· ++ [element]) h.children, h.blank⟩

/-- A frame is blended with blank text. -/
theorem addText_blank (frame : Frame) {s : String} (hs : Text.isBlankText s = true) :
    Blended frame (frame.addText s) := by
  refine ⟨rfl, rfl, rfl, ?_⟩
  show Text.isBlankText (_ ++ s) = _
  rw [isBlankText_append, hs, Bool.and_true]

end Blended

end Frame

namespace Reading

/-- The reading with one more element open and with others inside of that one. -/
def under (r : Reading) (inner : List Frame) (frame : Frame) : Reading :=
  ⟨inner ++ frame :: r.openFrames, r.root⟩

/-- Two readings stop with the same error, or go on with a frame that is blended.  There are
as many frames inside of it as `depth` says, and if there are none, then it is without children
only where `Childless` holds. -/
inductive Together (r : Reading) (depth : Nat) (Childless : Prop) :
    Except TreeError Reading → Except TreeError Reading → Prop where
  | stop (error : TreeError) : Together r depth Childless (.error error) (.error error)
  | goOn {inner : List Frame} {frame frame' : Frame} (blended : frame.Blended frame')
    (length : inner.length = depth)
    (childless : inner = [] → frame.children = [] → Childless) :
    Together r depth Childless (.ok (r.under inner frame)) (.ok (r.under inner frame'))

variable {frame frame' : Frame} {r : Reading}

theorem Together.left {depth : Nat} {Childless : Prop} {x x' : Except TreeError Reading}
    (h : Together r depth Childless x x') :
    (∃ error, x = .error error) ∨ ∃ inner frame, inner.length = depth ∧
      (inner = [] → frame.children = [] → Childless) ∧ x = .ok (r.under inner frame) := by
  cases h with
  | stop error => exact Or.inl ⟨error, rfl⟩
  | goOn _ length childless => exact Or.inr ⟨_, _, length, childless, rfl⟩

/-- With a frame inside of the one that is blended there is nothing to say of its children. -/
theorem Together.inside {depth : Nat} {Childless : Prop} (h : frame.Blended frame') (g : Frame)
    (inner : List Frame) (hlength : (g :: inner).length = depth) :
    Together r depth Childless (.ok (r.under (g :: inner) frame))
      (.ok (r.under (g :: inner) frame')) :=
  .goOn h hlength fun hnil => absurd hnil (List.cons_ne_nil g inner)

theorem complete_blended (h : frame.Blended frame') (r : Reading) (inner : List Frame)
    (element : Element) (Childless : Prop) :
    Together r inner.length Childless ((r.under inner frame).complete element)
      ((r.under inner frame').complete element) := by
  cases inner with
  | nil =>
    refine .goOn (h.addChild element) rfl fun _ hnone => ?_
    exact absurd hnone (List.append_ne_nil_of_right_ne_nil _ (List.cons_ne_nil _ _))
  | cons g inner =>
    exact .inside h (g.addChild element) inner rfl

/-- One event, where it does not close the frame. -/
theorem step_blended (h : frame.Blended frame') (r : Reading) (inner : List Frame)
    (hinside : inner = [] → ∀ name, e.item ≠ .endTag name) :
    Together r (e.item.after inner.length)
      (inner = [] ∧ frame.children = [] ∧ e.item.isOpening = false)
      ((r.under inner frame).step e) ((r.under inner frame').step e) := by
  obtain ⟨position, item⟩ := e
  cases item with
  | startTag tag =>
    show Together _ _ _ (openTag _ position tag) (openTag _ position tag)
    rw [openTag_eq, openTag_eq]
    cases Frame.ofTag position tag with
    | error error => exact .stop error
    | ok g => exact .inside h g inner rfl
  | emptyTag tag =>
    show Together _ _ _ (emptyTag _ position tag) (emptyTag _ position tag)
    rw [emptyTag_eq, emptyTag_eq]
    cases Frame.ofTag position tag with
    | error error => exact .stop error
    | ok g =>
      show Together _ _ _ (g.close.bind _) (g.close.bind _)
      cases g.close with
      | error error => exact .stop error
      | ok element => exact complete_blended h r inner element _
  | endTag name =>
    cases inner with
    | nil => exact absurd rfl (hinside rfl name)
    | cons g inner =>
      show Together _ _ _ (((r.under inner frame).push g).closeTag name)
        (((r.under inner frame').push g).closeTag name)
      rw [closeTag_push, closeTag_push]
      cases g.close with
      | error error => exact .stop error
      | ok element => exact complete_blended h r inner element _
  | text bytes =>
    show Together _ _ _ (text _ position bytes) (text _ position bytes)
    unfold text
    cases readText bytes with
    | error fault => exact .stop _
    | ok s =>
      cases inner with
      | nil => exact @Together.goOn r _ _ [] _ _ (h.addText s) rfl fun _ hnone => ⟨rfl, hnone, rfl⟩
      | cons g inner => exact .inside h (g.addText s) inner rfl
  | cdata bytes =>
    cases inner with
    | nil =>
      show Together _ _ _ (.error (.unsupportedNode frame.name _))
        (.error (.unsupportedNode frame'.name _))
      rw [h.name]
      exact .stop _
    | cons g inner => exact .stop _
  | instruction bytes =>
    cases inner with
    | nil =>
      show Together _ _ _ (.error (.unsupportedNode frame.name _))
        (.error (.unsupportedNode frame'.name _))
      rw [h.name]
      exact .stop _
    | cons g inner => exact .stop _
  | comment bytes | declaration bytes | doctype bytes =>
    exact .goOn h rfl fun hnil hnone => ⟨hnil, hnone, rfl⟩

/-- An event that opens nothing inside a frame without children leaves the children to come. -/
theorem isOpening_direct_of_cons {inner : List Frame}
    (hchild : inner = [] → frame.children = [] → (direct 0 (e :: es)).any Event.isOpening = true)
    (hinside : inner = [] → ∀ name, e.item ≠ .endTag name)
    (h : inner = [] ∧ frame.children = [] ∧ e.item.isOpening = false) :
    (direct 0 es).any Event.isOpening = true := by
  obtain ⟨hnil, hnone, hnot⟩ := h
  have hafter : e.item.after 0 = 0 := by
    obtain ⟨position, item⟩ := e
    cases item <;> first | rfl | cases hnot
  have hany := hchild hnil hnone
  rw [direct_zero_cons hafter (hinside hnil), List.any_cons, hnot, Bool.false_or] at hany
  exact hany

/-- A frame that is blended closes with a child as it does without. -/
theorem step_endTag_blended (h : frame.Blended frame') (r : Reading) (position : Nat)
    (name : List UInt8) (hchildren : frame.children ≠ []) :
    (r.under [] frame).step ⟨position, .endTag name⟩ =
      (r.under [] frame').step ⟨position, .endTag name⟩ := by
  show (r.push frame).closeTag name = (r.push frame').closeTag name
  rw [closeTag_push, closeTag_push, h.close_eq hchildren]

/-- Where a frame has a child by the time it closes, blank text in it makes no difference. -/
theorem outcome_blended (h : frame.Blended frame') (r : Reading) (inner : List Frame)
    (hchild : inner = [] → frame.children = [] → (direct 0 es).any Event.isOpening = true) :
    (r.under inner frame).outcome fault es = (r.under inner frame').outcome fault es := by
  induction es generalizing inner frame frame' with
  | nil =>
    cases inner with
    | nil =>
      cases fault with
      | none =>
        show Except.error (TreeError.unclosedElement frame.name) =
          .error (.unclosedElement frame'.name)
        rw [h.name]
      | some fault => rfl
    | cons g inner => cases fault <;> rfl
  | cons e es ih =>
    rw [outcome_cons, outcome_cons]
    by_cases hcloses : inner = [] ∧ ∃ name, e.item = .endTag name
    · obtain ⟨position, item⟩ := e
      obtain ⟨rfl, name, rfl⟩ := hcloses
      have hchildren : frame.children ≠ [] := fun hnone => absurd (hchild rfl hnone) (by simp [direct])
      rw [step_endTag_blended h r position name hchildren]
    · have hinside : inner = [] → ∀ name, e.item ≠ .endTag name :=
        fun hnil name hname => hcloses ⟨hnil, name, hname⟩
      have hstep := step_blended h r inner hinside
      generalize (r.under inner frame).step e = x at hstep ⊢
      generalize (r.under inner frame').step e = x' at hstep ⊢
      cases hstep with
      | stop error => rfl
      | goOn blended _ childless =>
        exact ih blended _ fun hnil hnone =>
          isOpening_direct_of_cons hchild hinside (childless hnil hnone)

/-- Blank text may come after any events that close all that they open, where the frame has a
child by the time it closes. -/
theorem outcome_blankInside {names : List (List UInt8)} {between after : List (Located Event)}
    {bytes : List UInt8} (hblank : IsBlank bytes) (position : Nat) (r : Reading)
    (inner : List Frame) (frame : Frame) (hnested : WellNested names between)
    (hnames : names.length = inner.length) (hclosed : depthAfter inner.length between = 0)
    (hchild : inner = [] → frame.children = [] →
      (direct 0 (between ++ after)).any Event.isOpening = true) :
    (r.under inner frame).outcome fault (between ++ after) =
      (r.under inner frame).outcome fault (between ++ ⟨position, .text bytes⟩ :: after) := by
  induction between generalizing names inner frame with
  | nil =>
    obtain ⟨s, hread, hs⟩ := hblank
    obtain rfl := List.length_eq_zero_iff.mp hclosed
    have hstep : (r.under [] frame).step ⟨position, .text bytes⟩ =
        .ok (r.under [] (frame.addText s)) := step_text position hread
    rw [List.nil_append, List.nil_append, outcome_of_step hstep]
    exact outcome_blended (Frame.Blended.addText_blank frame hs) r [] hchild
  | cons e between ih =>
    obtain ⟨hclosing, hnested⟩ := hnested
    have hinside : inner = [] → ∀ name, e.item ≠ .endTag name := by
      intro hnil name hname
      have hhead := hclosing name hname
      rw [hnil, List.length_nil, List.length_eq_zero_iff] at hnames
      rw [hnames] at hhead
      cases hhead
    rw [List.cons_append, List.cons_append, outcome_cons, outcome_cons]
    have hstep := (step_blended (Frame.Blended.refl frame) r inner hinside).left
    rcases hstep with ⟨error, hstep⟩ | ⟨inner', frame', hlength, hchildless, hstep⟩
    · rw [hstep]
      rfl
    · have hnames' : (namesAfter names e.item).length = inner'.length := by
        rw [length_namesAfter, hnames, hlength]
      have hclosed' : depthAfter inner'.length between = 0 := by
        rw [hlength]
        exact hclosed
      rw [hstep]
      exact ih inner' frame' hnested hnames' hclosed' fun hnil hnone =>
        isOpening_direct_of_cons hchild hinside (hchildless hnil hnone)

end Reading

theorem Transcript.read_eq_outcome (t : Transcript) :
    t.read = Reading.initial.outcome t.fault t.events := by
  unfold Transcript.read Reading.outcome Reading.ofEvents
  cases t.fault <;> cases Reading.initial.steps t.events <;> rfl

/-! ## Any number of changes -/

/-- What comes of a document is the same after one change, up to what does not show. -/
theorem outcome_restyle (hf : Forgets f Respells) (hnested : WellNested [] es)
    (h : Restyle Respells es es') :
    Alike f (Reading.initial.outcome fault es) (Reading.initial.outcome fault es') := by
  cases h with
  | respelled h => exact Reading.outcome_respelled hf h hnested rfl
  | @opened before after position stop tag =>
    refine congrArg (Except.mapError f) (Reading.outcome_append_congr fun r _ => ?_)
    exact r.outcome_opened position stop tag tag.name
  | remark h =>
    refine congrArg (Except.mapError f) (Reading.outcome_append_congr fun r _ => ?_)
    exact r.outcome_remark h
  | @instruction before after position bytes outside =>
    refine congrArg (Except.mapError f) (Reading.outcome_append_congr fun r hlength => ?_)
    exact Reading.outcome_instruction (hlength.trans outside) position bytes
  | @cut before after position stop bytes first second s t inside whole left right =>
    refine congrArg (Except.mapError f) (Reading.outcome_append_congr fun r hlength => ?_)
    exact Reading.outcome_cut (hlength ▸ inside) position stop whole left right
  | @blankOutside before after position bytes outside blank =>
    refine congrArg (Except.mapError f) (Reading.outcome_append_congr fun r hlength => ?_)
    exact Reading.outcome_blankOutside (hlength.trans outside) position blank
  | @blankInside outer inner after position start tag bytes nested closed child blank =>
    refine congrArg (Except.mapError f) (Reading.outcome_append_congr fun r _ => ?_)
    rw [Reading.outcome_cons, Reading.outcome_cons]
    show Except.bind (r.openTag start tag) _ = Except.bind (r.openTag start tag) _
    rw [Reading.openTag_eq]
    cases Frame.ofTag start tag with
    | error error => rfl
    | ok frame =>
      exact Reading.outcome_blankInside blank position r [] frame nested rfl closed
        fun _ _ => child

/-- The same after any number of changes. -/
theorem outcome_sameContent (hf : Forgets f Respells) (h : SameContent Respells es es') :
    Alike f (Reading.initial.outcome fault es) (Reading.initial.outcome fault es') := by
  induction h with
  | rel es es' h =>
    obtain ⟨hnested, _, h⟩ := h
    exact outcome_restyle hf hnested h
  | refl es => rfl
  | symm es es' _ ih => exact ih.symm
  | trans es es' es'' _ _ ih ih' => exact ih.trans ih'

/-- Where a fault of the document is does not show. -/
theorem outcome_fault_alike (hf : Forgets f Respells) {fault' : Option (Located Fault)}
    (h : fault.map Located.item = fault'.map Located.item) (es : List (Located Event)) :
    Alike f (Reading.initial.outcome fault es) (Reading.initial.outcome fault' es) := by
  unfold Reading.outcome
  cases Reading.initial.steps es with
  | error error => rfl
  | ok r =>
    cases fault with
    | none =>
      obtain rfl := Option.map_eq_none_iff.mp h.symm
      rfl
    | some fault =>
      obtain ⟨fault', rfl, hitem⟩ := Option.map_eq_some_iff.mp h.symm
      show Except.error (f (.xml fault.item _)) = .error (f (.xml fault'.item _))
      rw [hitem, hf.place]

theorem read_alike (hf : Forgets f Respells) {t t' : Transcript}
    (hfault : t.fault.map Located.item = t'.fault.map Located.item)
    (h : SameContent Respells t.events t'.events) : Alike f t.read t'.read := by
  rw [t.read_eq_outcome, t'.read_eq_outcome]
  exact (outcome_fault_alike hf hfault t.events).trans (outcome_sameContent hf h)

/-- Documents that differ in their presentation only have the same tree, or the same error at
some other byte.  Where no prefix is changed the error is the same within its tag too. -/
theorem read_sameContent {t t' : Transcript}
    (hfault : t.fault.map Located.item = t'.fault.map Located.item) :
    (SameContent Tag.SameLocal t.events t'.events →
        t.read.mapError TreeError.placeless = t'.read.mapError TreeError.placeless) ∧
      (SameContent Eq t.events t'.events →
        t.read.mapError TreeError.unplaced = t'.read.mapError TreeError.unplaced) :=
  ⟨read_alike forgets_placeless hfault, read_alike forgets_unplaced hfault⟩

/-- A list, with its name as it is spelled and with what is inside. -/
def listing (name : String) (inside : List (Located Event)) : List (Located Event) :=
  ⟨0, .startTag ⟨ascii name, []⟩⟩ :: (inside ++ [⟨20, .endTag (ascii name)⟩])

def shortItem : List (Located Event) := [⟨8, .emptyTag ⟨ascii "item", []⟩⟩]

def longItem : List (Located Event) :=
  [⟨8, .startTag ⟨ascii "item", []⟩⟩, ⟨14, .endTag (ascii "item")⟩]

def lineFeed : List (Located Event) := [⟨7, .text (ascii "\n")⟩]

theorem sameContent_listing :
    SameContent Tag.SameLocal (listing "list" shortItem)
      (listing "m:list" (lineFeed ++ longItem)) := by
  have hshort : WellNested [] (listing "list" shortItem) := by
    simp [listing, shortItem, WellNested, namesAfter]
  have hlong : WellNested [] (listing "list" longItem) := by
    simp [listing, longItem, WellNested, namesAfter]
  have hspaced : WellNested [] (listing "list" (lineFeed ++ longItem)) := by
    simp [listing, lineFeed, longItem, WellNested, namesAfter]
  have hprefixed : WellNested [] (listing "m:list" (lineFeed ++ longItem)) := by
    simp [listing, lineFeed, longItem, WellNested, namesAfter]
  have hopened : Restyle Tag.SameLocal (listing "list" shortItem) (listing "list" longItem) :=
    @Restyle.opened _ [⟨0, .startTag ⟨ascii "list", []⟩⟩] _ 8 14 ⟨ascii "item", []⟩
  have hblank : Restyle Tag.SameLocal (listing "list" longItem)
      (listing "list" (lineFeed ++ longItem)) :=
    @Restyle.blankInside _ [] [] _ 7 0 _ _ trivial rfl rfl ⟨"\n", rfl, rfl⟩
  have hspelled : Restyle Tag.SameLocal (listing "list" (lineFeed ++ longItem))
      (listing "m:list" (lineFeed ++ longItem)) :=
    .respelled <| .cons (.startTag ⟨rfl, rfl⟩) <| .cons .moved <| .cons .moved <| .cons .moved <|
      .cons .endTag .nil
  have hinside : SameContent Tag.SameLocal (listing "list" shortItem)
      (listing "list" (lineFeed ++ longItem)) :=
    .trans _ _ _ (.rel _ _ ⟨hshort, hlong, hopened⟩) (.rel _ _ ⟨hlong, hspaced, hblank⟩)
  exact .trans _ _ _ hinside (.rel _ _ ⟨hspaced, hprefixed, hspelled⟩)

theorem read_sameContent_listing :
    SameContent Tag.SameLocal (listing "list" shortItem)
        (listing "m:list" (lineFeed ++ longItem)) ∧
      (⟨listing "list" shortItem, none⟩ : Transcript).read.mapError TreeError.placeless =
        (⟨listing "m:list" (lineFeed ++ longItem), none⟩ : Transcript).read.mapError
          TreeError.placeless :=
  ⟨sameContent_listing,
    (@read_sameContent ⟨listing "list" shortItem, none⟩
      ⟨listing "m:list" (lineFeed ++ longItem), none⟩ rfl).1 sameContent_listing⟩

end ElementGrammar.Xml
