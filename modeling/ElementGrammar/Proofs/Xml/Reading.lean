import Mathlib.Tactic.MkIffOfInductiveProp
import ElementGrammar.Proofs.Text.Blank
import ElementGrammar.Proofs.Xml.Document

/-!
# The reader implements the document grammar

A reading holds the open elements on a stack; the grammar speaks of events alone.  The
two meet in the middle of a document: what has been read stands in the reading, what
has not been read stands in the events.

* `Draft` is an open element as it will be when it closes, put together from its frame
  and from the events that are still to come directly inside of it.  Its children so
  far are in the frame.
* `Reading.Fits` says of a reading and of the rest of the events that together they
  make up a document, and `Reading.sketch` which nodes its tree has.  Both together are
  `Reading.Yields`.
* `Reading.yields_cons_iff` is one event.  It goes through exactly where the reading fits,
  and what it leaves yields the same nodes.  An empty element is taken for its opening and
  its closing tag.
* `Reading.Advances` is what an event that goes through can do to a reading.
* `Reading.steps_finish_iff` is the run, and `read_iff_isDocument` the result.
  `readBytes_iff` says it of the bytes of a document, and `trim_eq_empty_of_read` which
  texts have nothing in them where there is a tree.
-/

namespace ElementGrammar.Xml

/-! ## Open elements to their ends -/

/-- An open element as it will be when it closes. -/
structure Draft where
  depth : Nat
  name : String
  attrs : Attributes
  /-- The children that have been closed. -/
  children : List Element
  /-- Whether it has a child, one that is closed, open or still to come. -/
  isParent : Bool
  /-- All text directly inside, where there is any. -/
  text : Option String

namespace Draft

/-- Whether the element can be closed. -/
def Closes (d : Draft) : Prop :=
  d.name ≠ "" ∧ (d.isParent → Text.isBlankText (d.text.getD ""))

/-- The element, without the children that are not closed. -/
def element (d : Draft) : Element :=
  ⟨d.name, d.attrs, d.children, if d.isParent then none else d.text⟩

/-- The nodes of the element, without those of the children that are not closed. -/
def nodes (d : Draft) : List Node :=
  d.element.preorder d.depth

/-- The draft with one more child that is closed. -/
def addChild (d : Draft) (child : Element) : Draft :=
  { d with children := d.children ++ [child] }

@[simp]
theorem closes_addChild (d : Draft) (child : Element) :
    (d.addChild child).Closes ↔ d.Closes :=
  Iff.rfl

@[simp]
theorem nodes_addChild (d : Draft) (child : Element) :
    (d.addChild child).nodes = d.nodes ++ child.preorder (d.depth + 1) := by
  show _ :: Element.preorderAll (d.depth + 1) (d.children ++ [child]) = _
  rw [Element.preorderAll_append, Element.preorderAll_singleton]
  rfl

end Draft

/-- Adds texts to a text. -/
def appendTexts (text : Option String) (texts : List String) : Option String :=
  texts.foldl (fun text s => some (text.getD "" ++ s)) text

theorem appendTexts_some (s : String) (texts : List String) :
    appendTexts (some s) texts = some (texts.foldl (· ++ ·) s) := by
  induction texts generalizing s with
  | nil => rfl
  | cons t texts ih => exact ih (s ++ t)

theorem appendTexts_none (texts : List String) :
    appendTexts none texts = if texts = [] then none else some (String.join texts) := by
  cases texts with
  | nil => rfl
  | cons t texts => exact appendTexts_some _ texts

/-- The draft of a frame inside `depth` others, where `inner` frames are inside of it. -/
def Frame.draft (depth inner : Nat) (es : List (Located Event)) (frame : Frame) : Draft where
  depth := depth
  name := frame.name
  attrs := frame.attrs
  children := frame.children
  isParent := inner ≠ 0 || !frame.children.isEmpty || (direct inner es).any Event.isOpening
  text := appendTexts frame.text ((direct inner es).filterMap Event.text?)

/-- The drafts of frames, innermost first, where `inner` frames are inside of all. -/
def drafts (inner : Nat) : List Frame → List (Located Event) → List Draft
  | [], _ => []
  | frame :: outer, es => frame.draft outer.length inner es :: drafts (inner + 1) outer es

/-! ## Events directly inside -/

variable {es : List (Located Event)} {e : Located Event} {position : Nat} {tag : Tag}
  {name : List UInt8}

theorem direct_zero_cons (h : e.item.after 0 = 0) (hend : ∀ name, e.item ≠ .endTag name) :
    direct 0 (e :: es) = e.item :: direct 0 es := by
  obtain ⟨position, event⟩ := e
  cases event with
  | startTag tag => cases h
  | endTag name => exact absurd rfl (hend name)
  | _ => rfl

theorem direct_succ_cons (inner : Nat) :
    direct (inner + 1) (e :: es) = direct (e.item.after (inner + 1)) es := by
  rw [direct]

theorem draft_startTag (depth inner : Nat) (frame : Frame) :
    frame.draft depth inner (⟨position, .startTag tag⟩ :: es) =
      frame.draft depth (inner + 1) es := by
  cases inner with
  | zero => simp [Frame.draft, direct, Event.after, Event.isOpening, Event.text?,
        List.filterMap_cons]
  | succ inner => simp [Frame.draft, direct, Event.after]

theorem drafts_startTag (inner : Nat) (frames : List Frame) :
    drafts inner frames (⟨position, .startTag tag⟩ :: es) = drafts (inner + 1) frames es := by
  induction frames generalizing inner with
  | nil => rfl
  | cons frame outer ih => rw [drafts, drafts, draft_startTag, ih]

theorem drafts_endTag (inner : Nat) (frames : List Frame) :
    drafts (inner + 2) frames (⟨position, .endTag name⟩ :: es) =
      drafts (inner + 1) frames es := by
  induction frames generalizing inner with
  | nil => rfl
  | cons frame outer ih =>
    rw [drafts, drafts, ih]
    rfl

/-- An empty element is nothing that its opening and its closing tag are not. -/
theorem drafts_emptyTag (inner : Nat) (frames : List Frame) :
    drafts inner frames (⟨position, .emptyTag tag⟩ :: es) =
      drafts inner frames (⟨position, .startTag tag⟩ :: ⟨position, .endTag name⟩ :: es) := by
  induction frames generalizing inner with
  | nil => rfl
  | cons frame outer ih =>
    rw [drafts, drafts, ih]
    cases inner with
    | zero => simp [Frame.draft, direct, Event.after, Event.isOpening, Event.text?,
        List.filterMap_cons]
    | succ inner => simp [Frame.draft, direct, Event.after]

/-- What opens, closes and says nothing changes no draft. -/
theorem drafts_beside (inner : Nat) (frames : List Frame)
    (hafter : ∀ depth, e.item.after depth = depth) (hopening : e.item.isOpening = false)
    (htext : e.item.text? = none ∨ inner ≠ 0) :
    drafts inner frames (e :: es) = drafts inner frames es := by
  induction frames generalizing inner with
  | nil => rfl
  | cons frame outer ih =>
    rw [drafts, drafts, ih (inner + 1) (.inr (Nat.succ_ne_zero inner))]
    cases inner with
    | zero =>
      have htext := htext.resolve_right (· rfl)
      have hend : ∀ name, e.item ≠ .endTag name := fun name hname => by
        have := hafter 1
        rw [hname] at this
        cases this
      simp [Frame.draft, direct_zero_cons (hafter 0) hend, hopening, htext]
    | succ inner => simp [Frame.draft, direct_succ_cons, hafter]

/-- A text goes to the innermost open element. -/
theorem drafts_text {bytes : List UInt8} {text : String} (frame : Frame) (outer : List Frame)
    (htext : readText bytes = .ok text) :
    drafts 0 (frame :: outer) (⟨position, .text bytes⟩ :: es) =
      drafts 0 (frame.addText text :: outer) es := by
  have houter : drafts 1 outer (⟨position, .text bytes⟩ :: es) = drafts 1 outer es :=
    drafts_beside 1 outer (fun _ => rfl) rfl (.inr Nat.one_ne_zero)
  have hread : Event.text? (.text bytes) = some text := by
    rw [Event.text?, htext]
    rfl
  rw [drafts, drafts, houter]
  simp [Frame.draft, direct, Event.after, Event.isOpening, Frame.addText, appendTexts, hread]

/-- A child that closes goes to the element around it. -/
theorem draft_addChild (hclosing : e.item = .endTag name) (depth : Nat) (frame : Frame)
    (child : Element) :
    (frame.addChild child).draft depth 0 es =
      (frame.draft depth 1 (e :: es)).addChild child := by
  simp [Frame.draft, direct, hclosing, Frame.addChild, Draft.addChild]

/-! ## Opening and closing an element -/

/-- An element closes as its draft says. -/
theorem Frame.close_eq_ok_iff {frame : Frame} {element : Element} (depth : Nat) :
    frame.close = .ok element ↔
      (frame.draft depth 0 []).Closes ∧ element = (frame.draft depth 0 []).element := by
  obtain ⟨name, attrs, children, text⟩ := frame
  have hdraft : Frame.draft depth 0 [] ⟨name, attrs, children, text⟩ =
      ⟨depth, name, attrs, children, !children.isEmpty, text⟩ := by
    simp [Frame.draft, direct, appendTexts]
  rw [hdraft, Draft.Closes, Draft.element, Frame.close, Element.new?, Frame.closingText]
  by_cases hname : name = ""
  · simp [hname]
  · have hempty : name.isEmpty = false := by simpa using hname
    cases children with
    | nil =>
      simp [hname, hempty]
      exact eq_comm
    | cons child children =>
      cases text with
      | none =>
        simp [hname, hempty, Text.isBlankText]
        exact eq_comm
      | some text =>
        by_cases hblank : Text.isBlankText text
        · simp [hname, hempty, hblank, Option.filter]
          exact eq_comm
        · simp [hname, hempty, hblank, Option.filter]

/-- The text of an opening tag is that of the draft of its element. -/
theorem text_draft_ofTag (depth : Nat) (localName : String) (attrs : Attributes) :
    (Frame.draft depth 0 es ⟨localName, attrs, [], none⟩).element.text =
      Opening.text ⟨depth, tag, direct 0 es⟩ := by
  simp only [Draft.element, Frame.draft, appendTexts_none, Opening.text, Opening.isParent,
    Opening.texts]
  by_cases hparent : (direct 0 es).any Event.isOpening
  · simp [hparent]
  · simp [hparent]

/-- A tag is in order where it opens an element that can be closed. -/
theorem wellFormed_iff_draft (depth position : Nat) (tag : Tag) :
    Opening.WellFormed ⟨depth, tag, direct 0 es⟩ ↔
      ∃ frame, Frame.ofTag position tag = .ok frame ∧ (frame.draft depth 0 es).Closes := by
  have hblank : ∀ texts : List String,
      Text.isBlankText ((appendTexts none texts).getD "") = Text.isBlankText (String.join texts) := by
    intro texts
    cases texts with
    | nil => rfl
    | cons t texts => rw [appendTexts_none, if_neg (List.cons_ne_nil t texts)]; rfl
  constructor
  · intro h
    obtain ⟨⟨name, hname, hne⟩, ⟨attrs, hattrs, hnodup⟩, hunmixed⟩ := h
    refine ⟨_, Frame.ofTag_eq_ok_iff.mpr ⟨name, attrs, hname, hattrs, hnodup, rfl⟩, hne, ?_⟩
    intro hparent
    rw [Frame.draft, hblank]
    exact hunmixed (by simpa [Frame.draft, Opening.isParent] using hparent)
  · intro h
    obtain ⟨frame, hframe, hne, hunmixed⟩ := h
    obtain ⟨name, attrs, hname, hattrs, hnodup, rfl⟩ := Frame.ofTag_eq_ok_iff.mp hframe
    refine ⟨⟨name, hname, hne⟩, ⟨attrs, hattrs, hnodup⟩, ?_⟩
    intro hparent
    have := hunmixed (by simpa [Frame.draft, Opening.isParent] using hparent)
    rwa [Frame.draft, hblank] at this

/-! ## Readings that fit -/

namespace Reading

/-- The elements outside of all others that have been opened. -/
def tops (r : Reading) : Nat :=
  r.root.toList.length + min 1 r.openFrames.length

/-- What has been read and the rest of the events make up a document. -/
@[mk_iff]
structure Fits (r : Reading) (es : List (Located Event)) : Prop where
  allowed : ∀ p ∈ placed r.openFrames.length es, p.2.Allowed p.1
  tags : ∀ o ∈ openings r.openFrames.length es, o.WellFormed
  frames : ∀ d ∈ drafts 0 r.openFrames es, d.Closes
  root : r.tops + (openings r.openFrames.length es).countP (·.depth = 0) = 1
  closed : depthAfter r.openFrames.length es = 0

/-- The nodes of the tree in preorder: those of the root, those of the open elements,
outermost first, and those that are still to come. -/
def sketch (r : Reading) (es : List (Located Event)) : List (Option Node) :=
  (Element.preorderAll 0 r.root.toList ++
      (drafts 0 r.openFrames es).reverse.flatMap Draft.nodes).map some ++
    (openings r.openFrames.length es).map Opening.node?

/-! ## One event -/

theorem openings_cons_of_not {depth : Nat} (h : e.item.isOpening = false) :
    openings depth (e :: es) = openings (e.item.after depth) es := by
  obtain ⟨position, event⟩ := e
  cases event with
  | startTag tag => cases h
  | emptyTag tag => cases h
  | _ => rfl

/-- An event that neither opens nor closes anything, and may stand where it stands,
leaves what fits. -/
theorem fits_beside {frames frames' : List Frame} {root : Option Element}
    (hafter : ∀ depth, e.item.after depth = depth) (hopening : e.item.isOpening = false)
    (hlength : frames'.length = frames.length)
    (hdrafts : drafts 0 frames (e :: es) = drafts 0 frames' es) :
    Fits ⟨frames, root⟩ (e :: es) ↔
      e.item.Allowed frames.length ∧ Fits ⟨frames', root⟩ es := by
  simp only [fits_iff, tops, placed, List.forall_mem_cons, openings_cons_of_not hopening,
    hafter, hdrafts, hlength, depthAfter_cons, and_assoc]

theorem sketch_beside {frames frames' : List Frame} {root : Option Element}
    (hafter : ∀ depth, e.item.after depth = depth) (hopening : e.item.isOpening = false)
    (hlength : frames'.length = frames.length)
    (hdrafts : drafts 0 frames (e :: es) = drafts 0 frames' es) :
    sketch ⟨frames, root⟩ (e :: es) = sketch ⟨frames', root⟩ es := by
  simp only [sketch, openings_cons_of_not hopening, hafter, hdrafts, hlength]

/-- An opening tag fits where it opens an element with which the rest fits. -/
theorem fits_startTag (r : Reading) :
    r.Fits (⟨position, .startTag tag⟩ :: es) ↔
      ∃ frame, Frame.ofTag position tag = .ok frame ∧
        Fits ⟨frame :: r.openFrames, r.root⟩ es := by
  have htags : openings r.openFrames.length (⟨position, .startTag tag⟩ :: es) =
      ⟨r.openFrames.length, tag, direct 0 es⟩ :: openings (r.openFrames.length + 1) es := rfl
  -- Outside of all elements the tag moves from those to come to those that are open.
  have htops : r.root.toList.length + min 1 r.openFrames.length +
      (openings r.openFrames.length (⟨position, .startTag tag⟩ :: es)).countP (·.depth = 0) =
      r.root.toList.length + min 1 (r.openFrames.length + 1) +
        (openings (r.openFrames.length + 1) es).countP (·.depth = 0) := by
    rw [htags, List.countP_cons]
    by_cases hdepth : r.openFrames.length = 0
    · simp [hdepth]
      omega
    · simp [hdepth]
      omega
  simp only [fits_iff, tops, htops, placed, drafts, drafts_startTag, List.forall_mem_cons,
    depthAfter_cons, List.length_cons, Event.after_startTag, Event.allowed_startTag, true_and]
  rw [htags, List.forall_mem_cons, wellFormed_iff_draft _ position]
  constructor
  · intro h
    obtain ⟨hallowed, ⟨⟨frame, hframe, hcloses⟩, htags⟩, hframes, hroot, hclosed⟩ := h
    exact ⟨frame, hframe, hallowed, htags, ⟨hcloses, hframes⟩, hroot, hclosed⟩
  · intro h
    obtain ⟨frame, hframe, hallowed, htags, ⟨hcloses, hframes⟩, hroot, hclosed⟩ := h
    exact ⟨hallowed, ⟨⟨frame, hframe, hcloses⟩, htags⟩, hframes, hroot, hclosed⟩

theorem sketch_startTag {r : Reading} {frame : Frame}
    (h : Frame.ofTag position tag = .ok frame) :
    r.sketch (⟨position, .startTag tag⟩ :: es) =
      sketch ⟨frame :: r.openFrames, r.root⟩ es := by
  obtain ⟨name, attrs, hname, hattrs, _, rfl⟩ := Frame.ofTag_eq_ok_iff.mp h
  have hnode : Opening.node? ⟨r.openFrames.length, tag, direct 0 es⟩ =
      some ⟨r.openFrames.length, name, attrs,
        (Frame.draft r.openFrames.length 0 es ⟨name, attrs, [], none⟩).element.text⟩ := by
    rw [Opening.node?, hname, hattrs, text_draft_ofTag]
  have hnodes : (Frame.draft r.openFrames.length 0 es ⟨name, attrs, [], none⟩).nodes =
      [⟨r.openFrames.length, name, attrs,
        (Frame.draft r.openFrames.length 0 es ⟨name, attrs, [], none⟩).element.text⟩] := by
    rw [Draft.nodes, Element.preorder_eq_cons]
    rfl
  simp only [sketch, openings, List.map_cons, hnode, drafts, drafts_startTag,
    List.reverse_cons, List.flatMap_append, List.flatMap_singleton, hnodes, List.map_append,
    List.append_assoc, List.singleton_append, List.length_cons, List.map_nil]

/-- The draft of a frame that closes is that of the frame without anything to come. -/
theorem draft_endTag (depth : Nat) (frame : Frame) :
    frame.draft depth 0 (⟨position, .endTag name⟩ :: es) = frame.draft depth 0 [] :=
  rfl

/-- A closing tag fits where it closes an element that has a place, and the rest fits
with that. -/
theorem fits_endTag (frame : Frame) (outer : List Frame) (root : Option Element) :
    Fits ⟨frame :: outer, root⟩ (⟨position, .endTag name⟩ :: es) ↔
      ∃ element, frame.close = .ok element ∧
        ∃ r', complete ⟨outer, root⟩ element = .ok r' ∧ r'.Fits es := by
  simp only [fits_iff, tops, placed, drafts, List.forall_mem_cons, draft_endTag,
    openings_cons_of_not (e := ⟨position, .endTag name⟩) rfl, depthAfter_cons,
    List.length_cons, Event.after_endTag, Nat.add_sub_cancel, Event.allowed_endTag, true_and,
    Frame.close_eq_ok_iff outer.length]
  cases outer with
  | nil =>
    cases root with
    | some first =>
      -- The root and the element that closes are one too many.
      simp [complete]
      omega
    | none =>
      constructor
      · intro h
        obtain ⟨hallowed, htags, ⟨hcloses, -⟩, hroot, hclosed⟩ := h
        exact ⟨_, ⟨hcloses, rfl⟩, _, rfl, hallowed, htags, by simp [drafts], hroot, hclosed⟩
      · intro h
        obtain ⟨_, ⟨hcloses, -⟩, r', hcomplete, h⟩ := h
        injection hcomplete with hcomplete
        subst hcomplete
        obtain ⟨hallowed, htags, -, hroot, hclosed⟩ := h
        exact ⟨hallowed, htags, ⟨hcloses, by simp [drafts]⟩, hroot, hclosed⟩
  | cons parent outer =>
    -- The element around it stays open, with one more child.
    have hparent : ∀ child, (parent.addChild child).draft outer.length 0 es =
        (parent.draft outer.length 1 (⟨position, .endTag name⟩ :: es)).addChild child :=
      draft_addChild rfl outer.length parent
    have houter : drafts 2 outer (⟨position, .endTag name⟩ :: es) = drafts 1 outer es :=
      drafts_endTag 0 outer
    rw [drafts, List.forall_mem_cons, houter]
    constructor
    · intro h
      obtain ⟨hallowed, htags, ⟨hcloses, hframes⟩, hroot, hclosed⟩ := h
      refine ⟨_, ⟨hcloses, rfl⟩, _, rfl, hallowed, htags, ?_, hroot, hclosed⟩
      rwa [drafts, List.forall_mem_cons, hparent]
    · intro h
      obtain ⟨_, ⟨hcloses, -⟩, r', hcomplete, h⟩ := h
      injection hcomplete with hcomplete
      subst hcomplete
      obtain ⟨hallowed, htags, hframes, hroot, hclosed⟩ := h
      rw [drafts, List.forall_mem_cons, hparent] at hframes
      exact ⟨hallowed, htags, ⟨hcloses, hframes⟩, hroot, hclosed⟩

theorem sketch_endTag {frame : Frame} {outer : List Frame} {root : Option Element}
    {element : Element} {r' : Reading} (hclose : frame.close = .ok element)
    (hcomplete : complete ⟨outer, root⟩ element = .ok r') :
    sketch ⟨frame :: outer, root⟩ (⟨position, .endTag name⟩ :: es) = r'.sketch es := by
  obtain ⟨-, helement⟩ := (Frame.close_eq_ok_iff outer.length).mp hclose
  have hnodes : (frame.draft outer.length 0 (⟨position, .endTag name⟩ :: es)).nodes =
      element.preorder outer.length := by
    rw [draft_endTag, helement]
    rfl
  cases outer with
  | nil =>
    cases root with
    | some first => cases hcomplete
    | none =>
      injection hcomplete with hcomplete
      subst hcomplete
      simp [sketch, drafts, openings, Event.after, Element.preorderAll,
        show (Frame.draft 0 0 _ frame).nodes = _ from hnodes]
  | cons parent outer =>
    injection hcomplete with hcomplete
    subst hcomplete
    rw [List.length_cons] at hnodes
    simp [sketch, drafts, openings, hnodes, drafts_endTag,
      draft_addChild (e := ⟨position, .endTag name⟩) rfl]
    rfl

theorem fits_emptyTag (r : Reading) :
    r.Fits (⟨position, .emptyTag tag⟩ :: es) ↔
      r.Fits (⟨position, .startTag tag⟩ :: ⟨position, .endTag name⟩ :: es) := by
  rw [fits_iff, fits_iff, drafts_emptyTag]
  simp only [placed, List.forall_mem_cons, Event.after_emptyTag, Event.after_startTag,
    Event.after_endTag, Nat.add_sub_cancel, Event.allowed_emptyTag, Event.allowed_startTag,
    Event.allowed_endTag, true_and]
  rfl

theorem sketch_emptyTag (r : Reading) :
    r.sketch (⟨position, .emptyTag tag⟩ :: es) =
      r.sketch (⟨position, .startTag tag⟩ :: ⟨position, .endTag name⟩ :: es) := by
  rw [sketch, sketch, drafts_emptyTag]
  rfl

/-- What has been read and the rest of the events make up a document whose tree has the
given nodes. -/
def Yields (r : Reading) (es : List (Located Event)) (nodes : List (Option Node)) : Prop :=
  r.Fits es ∧ r.sketch es = nodes

variable {nodes : List (Option Node)}

theorem yields_startTag (r : Reading) :
    r.Yields (⟨position, .startTag tag⟩ :: es) nodes ↔
      ∃ frame, Frame.ofTag position tag = .ok frame ∧
        Yields ⟨frame :: r.openFrames, r.root⟩ es nodes := by
  rw [Yields, fits_startTag]
  constructor
  · intro h
    obtain ⟨⟨frame, hframe, hfits⟩, hsketch⟩ := h
    exact ⟨frame, hframe, hfits, sketch_startTag hframe ▸ hsketch⟩
  · intro h
    obtain ⟨frame, hframe, hfits, hsketch⟩ := h
    exact ⟨⟨frame, hframe, hfits⟩, sketch_startTag hframe ▸ hsketch⟩

theorem yields_endTag (frame : Frame) (outer : List Frame) (root : Option Element) :
    Yields ⟨frame :: outer, root⟩ (⟨position, .endTag name⟩ :: es) nodes ↔
      ∃ element, frame.close = .ok element ∧
        ∃ r', complete ⟨outer, root⟩ element = .ok r' ∧ r'.Yields es nodes := by
  rw [Yields, fits_endTag]
  constructor
  · intro h
    obtain ⟨⟨element, hclose, r', hcomplete, hfits⟩, hsketch⟩ := h
    exact ⟨element, hclose, r', hcomplete, hfits, sketch_endTag hclose hcomplete ▸ hsketch⟩
  · intro h
    obtain ⟨element, hclose, r', hcomplete, hfits, hsketch⟩ := h
    exact ⟨⟨element, hclose, r', hcomplete, hfits⟩, sketch_endTag hclose hcomplete ▸ hsketch⟩

theorem yields_emptyTag (r : Reading) (name : List UInt8) :
    r.Yields (⟨position, .emptyTag tag⟩ :: es) nodes ↔
      r.Yields (⟨position, .startTag tag⟩ :: ⟨position, .endTag name⟩ :: es) nodes := by
  rw [Yields, Yields, fits_emptyTag, sketch_emptyTag]

theorem yields_beside {frames frames' : List Frame} {root : Option Element}
    (hafter : ∀ depth, e.item.after depth = depth) (hopening : e.item.isOpening = false)
    (hlength : frames'.length = frames.length)
    (hdrafts : drafts 0 frames (e :: es) = drafts 0 frames' es) :
    Yields ⟨frames, root⟩ (e :: es) nodes ↔
      e.item.Allowed frames.length ∧ Yields ⟨frames', root⟩ es nodes := by
  rw [Yields, fits_beside hafter hopening hlength hdrafts,
    sketch_beside hafter hopening hlength hdrafts, and_assoc]
  rfl

/-- An event that says nothing leaves everything as it is, where it may stand. -/
theorem yields_silent (r : Reading) (hafter : ∀ depth, e.item.after depth = depth)
    (hopening : e.item.isOpening = false) (htext : e.item.text? = none) :
    r.Yields (e :: es) nodes ↔ e.item.Allowed r.openFrames.length ∧ r.Yields es nodes :=
  yields_beside hafter hopening rfl (drafts_beside 0 r.openFrames hafter hopening (.inl htext))

theorem not_yields_of_not_allowed {r : Reading} (h : ¬ e.item.Allowed r.openFrames.length) :
    ¬ r.Yields (e :: es) nodes := by
  intro hyields
  exact h (hyields.1.allowed _ List.mem_cons_self)

theorem yields_text_iff (r : Reading) (bytes : List UInt8) :
    r.Yields (⟨position, .text bytes⟩ :: es) nodes ↔
      ∃ r', r.text position bytes = .ok r' ∧ r'.Yields es nodes := by
  obtain ⟨frames, root⟩ := r
  rw [text]
  cases htext : readText bytes with
  | error fault =>
    have hrefused : ¬ Event.Allowed frames.length (.text bytes) := by
      intro h
      obtain ⟨s, hs, _⟩ := h
      rw [htext] at hs
      cases hs
    simpa using not_yields_of_not_allowed hrefused
  | ok s =>
    cases frames with
    | nil =>
      have hallowed : Event.Allowed 0 (.text bytes) ↔ Text.isBlankText s := by
        simp [Event.Allowed, htext]
      rw [yields_beside (fun _ => rfl) rfl rfl rfl]
      show Event.Allowed 0 (.text bytes) ∧ _ ↔ _
      rw [hallowed]
      by_cases hblank : Text.isBlankText s
      · simp [hblank]
      · simp [hblank]
    | cons frame outer =>
      have hallowed : Event.Allowed (outer.length + 1) (.text bytes) :=
        ⟨s, htext, fun h => absurd h (Nat.succ_ne_zero _)⟩
      have hlength : (frame.addText s :: outer).length = (frame :: outer).length := rfl
      rw [yields_beside (fun _ => rfl) rfl hlength (drafts_text frame outer htext)]
      simp [hallowed]

/-- An event goes through exactly where the reading fits, and it leaves what fits, with
the same nodes. -/
theorem yields_cons_iff {r : Reading}
    (hclosing : ∀ name, e.item = .endTag name → r.openFrames ≠ []) :
    r.Yields (e :: es) nodes ↔ ∃ r', r.step e = .ok r' ∧ r'.Yields es nodes := by
  obtain ⟨position, event⟩ := e
  cases event with
  | startTag tag =>
    show _ ↔ ∃ r', r.openTag position tag = .ok r' ∧ _
    rw [yields_startTag, openTag]
    cases Frame.ofTag position tag <;> simp
  | emptyTag tag =>
    show _ ↔ ∃ r', r.emptyTag position tag = .ok r' ∧ _
    rw [yields_emptyTag r [], yields_startTag, emptyTag]
    cases Frame.ofTag position tag with
    | error error => simp
    | ok frame =>
      simp only [Except.ok.injEq, exists_eq_left', yields_endTag]
      cases frame.close <;> simp
  | endTag name =>
    obtain ⟨frames, root⟩ := r
    show _ ↔ ∃ r', closeTag ⟨frames, root⟩ name = .ok r' ∧ _
    cases frames with
    | nil => exact absurd rfl (hclosing name rfl)
    | cons frame outer =>
      rw [yields_endTag, closeTag]
      dsimp only
      cases frame.close <;> simp
  | text bytes => exact yields_text_iff r bytes
  | cdata bytes =>
    have hrefused : ∀ r', r.step ⟨position, .cdata bytes⟩ ≠ .ok r' := by
      obtain ⟨frames, root⟩ := r
      intro r' h
      cases frames <;> cases h
    simpa [hrefused] using not_yields_of_not_allowed id
  | instruction bytes =>
    rw [yields_silent r (fun _ => rfl) rfl rfl]
    obtain ⟨frames, root⟩ := r
    show frames.length = 0 ∧ _ ↔ ∃ r', instruction ⟨frames, root⟩ = .ok r' ∧ _
    rw [instruction]
    cases frames <;> simp
  | comment bytes | declaration bytes | doctype bytes =>
    rw [yields_silent r (fun _ => rfl) rfl rfl]
    simp [step, Event.Allowed]

/-! ## A whole run -/

/-- A reading is done where it has a root and nothing is open. -/
theorem yields_nil_iff {r : Reading} :
    r.Yields [] nodes ↔ ∃ t, r.finish = .ok t ∧ (t.preorder 0).map some = nodes := by
  obtain ⟨frames, root⟩ := r
  rw [Yields, fits_iff, finish]
  cases frames with
  | nil =>
    cases root with
    | none => simp [tops, openings]
    | some root => simp [tops, openings, placed, drafts, depthAfter, sketch]
  | cons frame outer => simp [depthAfter]

theorem length_namesAfter (names : List (List UInt8)) (event : Event) :
    (namesAfter names event).length = event.after names.length := by
  cases event <;> simp [namesAfter, Event.after]

theorem length_complete {r r' : Reading} {element : Element}
    (h : r.complete element = .ok r') : r'.openFrames.length = r.openFrames.length := by
  obtain ⟨frames, root⟩ := r
  cases frames with
  | nil =>
    cases root with
    | none =>
      injection h with h
      rw [← h]
    | some first => cases h
  | cons frame outer =>
    injection h with h
    rw [← h]
    rfl

/-- What an event at a position can do to a reading. -/
inductive Advances (r : Reading) (position : Nat) : Event → Reading → Prop where
  | opened {tag : Tag} {frame : Frame} (hframe : Frame.ofTag position tag = .ok frame) :
      Advances r position (.startTag tag) { r with openFrames := frame :: r.openFrames }
  /-- An empty element is opened and closed at once. -/
  | emptied {tag : Tag} {frame : Frame} {element : Element} {r' : Reading}
      (hframe : Frame.ofTag position tag = .ok frame) (hclose : frame.close = .ok element)
      (hcomplete : r.complete element = .ok r') : Advances r position (.emptyTag tag) r'
  | closed {name : List UInt8} {frame : Frame} {outer : List Frame} {element : Element}
      {r' : Reading} (hopen : r.openFrames = frame :: outer) (hclose : frame.close = .ok element)
      (hcomplete : complete { r with openFrames := outer } element = .ok r') :
      Advances r position (.endTag name) r'
  | texted {bytes : List UInt8} {text : String} {frame : Frame} {outer : List Frame}
      (hopen : r.openFrames = frame :: outer) (htext : readText bytes = .ok text) :
      Advances r position (.text bytes) { r with openFrames := frame.addText text :: outer }
  /-- The event says nothing here. -/
  | passed {event : Event} (hafter : ∀ depth, event.after depth = depth) :
      Advances r position event r

/-- An event that goes through does one of these. -/
theorem advances_of_step {r r' : Reading} (h : r.step e = .ok r') :
    r.Advances e.position e.item r' := by
  obtain ⟨position, event⟩ := e
  cases event with
  | startTag tag =>
    simp only [step, openTag] at h
    split at h
    · cases h
    · rename_i frame hframe
      injection h with h
      exact h ▸ .opened hframe
  | emptyTag tag =>
    simp only [step, emptyTag] at h
    split at h
    · cases h
    · rename_i frame hframe
      split at h
      · cases h
      · rename_i element hclose
        exact .emptied hframe hclose h
  | endTag name =>
    simp only [step, closeTag] at h
    split at h
    · cases h
    · rename_i frame outer hopen
      split at h
      · cases h
      · rename_i element hclose
        exact .closed hopen hclose h
  | text bytes =>
    simp only [step, text] at h
    split at h
    · cases h
    · rename_i text htext
      split at h
      · rename_i frame outer hopen
        injection h with h
        exact h ▸ .texted hopen htext
      · split at h
        · injection h with h
          exact h ▸ .passed fun _ => rfl
        · cases h
  | cdata bytes =>
    simp only [step, cdata] at h
    split at h <;> cases h
  | instruction bytes =>
    simp only [step, instruction] at h
    split at h
    · cases h
    · injection h with h
      exact h ▸ .passed fun _ => rfl
  | comment bytes | declaration bytes | doctype bytes =>
    injection h with h
    exact h ▸ .passed fun _ => rfl

/-- The stack is as high as the events say. -/
theorem length_step {r r' : Reading} (h : r.step e = .ok r') :
    r'.openFrames.length = e.item.after r.openFrames.length := by
  obtain ⟨position, event⟩ := e
  cases advances_of_step h with
  | opened => rfl
  | emptied _ _ hcomplete => exact length_complete hcomplete
  | closed hopen _ hcomplete =>
    rw [length_complete hcomplete, hopen]
    rfl
  | texted hopen =>
    rw [hopen]
    rfl
  | passed hafter => exact (hafter _).symm

/-- Reading the rest of the events comes out well exactly where they fit what has been
read. -/
theorem steps_finish_iff {r : Reading} {names : List (List UInt8)} (hnested : WellNested names es)
    (hnames : names.length = r.openFrames.length) :
    r.Yields es nodes ↔
      ∃ r', r.steps es = .ok r' ∧ ∃ t, r'.finish = .ok t ∧ (t.preorder 0).map some = nodes := by
  induction es generalizing r names with
  | nil => simp [yields_nil_iff, steps]
  | cons e es ih =>
    obtain ⟨hclosing, hnested⟩ := hnested
    have hopen : ∀ name, e.item = .endTag name → r.openFrames ≠ [] := by
      intro name hname hnil
      have hhead := hclosing name hname
      rw [hnil, List.length_nil, List.length_eq_zero_iff] at hnames
      rw [hnames] at hhead
      cases hhead
    rw [yields_cons_iff hopen, steps]
    cases hstep : r.step e with
    | error error => simp
    | ok r' =>
      have hlength : (namesAfter names e.item).length = r'.openFrames.length := by
        rw [length_namesAfter, hnames, length_step hstep]
      simpa using ih hnested hlength

end Reading

/-! ## Documents -/

/-- Before anything is read, what fits is a document. -/
theorem yields_initial_iff {events : List (Located Event)} {nodes : List (Option Node)} :
    Reading.initial.Yields events nodes ↔
      IsDocument events ∧ (openings 0 events).map Opening.node? = nodes := by
  have hsketch : Reading.initial.sketch events = (openings 0 events).map Opening.node? := by
    simp [Reading.sketch, Reading.initial, drafts, Element.preorderAll]
  rw [Reading.Yields, hsketch]
  refine and_congr_left fun _ => ⟨fun h => ?_, fun h => ?_⟩
  · exact ⟨h.allowed, h.tags, by simpa [Reading.tops, Reading.initial] using h.root, h.closed⟩
  · exact ⟨h.allowed, h.tags, by simp [Reading.initial, drafts],
      by simpa [Reading.tops, Reading.initial] using h.root, h.closed⟩

/-- Well-nested events have a tree with the given nodes exactly where they are a document
with these. -/
theorem exists_read_iff {events : List (Located Event)} (hnested : WellNested [] events)
    (nodes : List (Option Node)) :
    (∃ t, (⟨events, none⟩ : Transcript).read = .ok t ∧ (t.preorder 0).map some = nodes) ↔
      IsDocument events ∧ (openings 0 events).map Opening.node? = nodes := by
  rw [← yields_initial_iff, Reading.steps_finish_iff hnested rfl]
  show (∃ t, Reading.ofEvents events = .ok t ∧ _) ↔ _
  rw [Reading.ofEvents]
  cases Reading.initial.steps events <;> simp

/-- Bytes have a tree exactly where they can be cut into the events of a document. -/
theorem readBytes_iff (bytes : List UInt8) :
    (∃ t, readBytes bytes = .ok t) ↔
      (Transcript.ofBytes bytes).fault = none ∧ IsDocument (Transcript.ofBytes bytes).events := by
  have hnested : WellNested [] (Transcript.ofBytes bytes).events :=
    transcribe_wellNested 0 [] (dropByteOrderMark bytes)
  rw [readBytes]
  generalize Transcript.ofBytes bytes = transcript at hnested ⊢
  obtain ⟨events, fault⟩ := transcript
  cases fault with
  | none =>
    constructor
    · intro h
      obtain ⟨t, ht⟩ := h
      exact ⟨rfl, ((exists_read_iff hnested _).mp ⟨t, ht, rfl⟩).1⟩
    · intro h
      obtain ⟨-, h⟩ := h
      obtain ⟨t, ht, -⟩ := (exists_read_iff hnested _).mpr ⟨h, rfl⟩
      exact ⟨t, ht⟩
  | some fault =>
    have hfault : ∀ t, Transcript.read ⟨events, some fault⟩ ≠ .ok t := by
      intro t
      rw [Transcript.read]
      cases Reading.initial.steps events <;> simp
    simp [hfault]

/-- Where events have a tree, trimming leaves nothing of the texts outside of all elements and
nothing of those beside children. -/
theorem trim_eq_empty_of_read {events : List (Located Event)} (hnested : WellNested [] events)
    {t : Element} (ht : (⟨events, none⟩ : Transcript).read = .ok t) :
    (∀ bytes s, (0, .text bytes) ∈ placed 0 events → readText bytes = .ok s →
      Text.trim s = "") ∧
      ∀ o ∈ openings 0 events, o.isParent → Text.trim (String.join o.texts) = "" := by
  have hdocument : IsDocument events := ((exists_read_iff hnested _).mp ⟨t, ht, rfl⟩).1
  refine ⟨fun bytes s hplaced hs => ?_, fun o ho hparent => ?_⟩
  · obtain ⟨s', hs', hblank⟩ := hdocument.allowed _ hplaced
    rw [hs, Except.ok.injEq] at hs'
    subst hs'
    exact Text.isBlankText_iff.mp (hblank rfl)
  · exact Text.isBlankText_iff.mp ((hdocument.tags o ho).unmixed hparent)

/-- The events of a transcript without a fault have a tree exactly where they are a
document, and the tree is the one whose elements in preorder, with their depths, are the
nodes of the opening tags in document order. -/
theorem read_iff_isDocument {events : List (Located Event)} (hnested : WellNested [] events) :
    ((∃ t, (⟨events, none⟩ : Transcript).read = .ok t) ↔ IsDocument events) ∧
      ∀ t, (⟨events, none⟩ : Transcript).read = .ok t ↔
        IsDocument events ∧ (t.preorder 0).map some = (openings 0 events).map Opening.node? := by
  have hread : ∀ t, (⟨events, none⟩ : Transcript).read = .ok t →
      IsDocument events ∧ (openings 0 events).map Opening.node? = (t.preorder 0).map some :=
    fun t ht => (exists_read_iff hnested _).mp ⟨t, ht, rfl⟩
  refine ⟨⟨fun ⟨t, ht⟩ => (hread t ht).1, fun h => ?_⟩, fun t => ⟨fun ht => ?_, ?_⟩⟩
  · obtain ⟨t, ht, -⟩ := (exists_read_iff hnested _).mpr ⟨h, rfl⟩
    exact ⟨t, ht⟩
  · exact ⟨(hread t ht).1, (hread t ht).2.symm⟩
  · intro h
    obtain ⟨h, hnodes⟩ := h
    obtain ⟨t', ht', hnodes'⟩ := (exists_read_iff hnested _).mpr ⟨h, hnodes.symm⟩
    have hpreorder := (List.map_inj_right fun _ _ => Option.some.inj).mp hnodes'
    rwa [← Element.preorder_injective hpreorder]

/-- A list of two items: a prefix, an attribute, a comment inside a text that is escaped,
blank text between elements, and an empty element. -/
def catalogue : List (Located Event) :=
  [⟨0, .startTag ⟨ascii "m:list", ascii " n='1'"⟩⟩, ⟨16, .text (ascii " ")⟩,
    ⟨17, .startTag ⟨ascii "item", []⟩⟩, ⟨23, .text (ascii "a&lt;")⟩, ⟨28, .comment []⟩,
    ⟨35, .text (ascii "b")⟩, ⟨36, .endTag (ascii "item")⟩, ⟨43, .emptyTag ⟨ascii "item", []⟩⟩,
    ⟨50, .endTag (ascii "m:list")⟩]

/-- A list with a text beside its only item. -/
def mixed : List (Located Event) :=
  [⟨0, .startTag ⟨ascii "list", []⟩⟩, ⟨6, .text (ascii " a ")⟩, ⟨9, .emptyTag ⟨ascii "item", []⟩⟩,
    ⟨16, .endTag (ascii "list")⟩]

/-- An empty item with a text after it. -/
def trailed : List (Located Event) :=
  [⟨0, .emptyTag ⟨ascii "item", []⟩⟩, ⟨7, .text (ascii " a ")⟩]

theorem ofTag_ascii_item (position : Nat) :
    Frame.ofTag position ⟨ascii "item", []⟩ = .ok ⟨"item", [], [], none⟩ := by
  have hitem : Tag.rawAttributes ⟨ascii "item", []⟩ = [] := attributesFrom_of_ended rfl
  rw [Frame.ofTag, hitem]
  rfl

theorem read_catalogue :
    (⟨catalogue, none⟩ : Transcript).read =
      .ok ⟨"list", [⟨"n", "1"⟩], [⟨"item", [], [], some "a<b"⟩, ⟨"item", [], [], none⟩], none⟩ := by
  have hlist : Tag.rawAttributes ⟨ascii "m:list", ascii " n='1'"⟩ =
      [.ok ⟨ascii "n", ascii "1"⟩] :=
    (attributesFrom_of_found rfl).trans (congrArg _ (attributesFrom_of_ended rfl))
  have hopenList : ∀ position, Frame.ofTag position ⟨ascii "m:list", ascii " n='1'"⟩ =
      .ok ⟨"list", [⟨"n", "1"⟩], [], none⟩ := fun position => by
    rw [Frame.ofTag, hlist]
    rfl
  have hblank : readText (ascii " ") = .ok " " := rfl
  have hescaped : readText (ascii "a&lt;") = .ok "a<" := rfl
  have hplain : readText (ascii "b") = .ok "b" := rfl
  simp only [Transcript.read, catalogue, Reading.ofEvents, Reading.steps, Reading.step,
    Reading.openTag, Reading.emptyTag, Reading.closeTag, Reading.text, Reading.initial,
    hopenList, ofTag_ascii_item, hblank, hescaped, hplain]
  rfl

theorem read_mixed :
    (⟨mixed, none⟩ : Transcript).read = .error (.mixedContent "list") := by
  have hlist : Tag.rawAttributes ⟨ascii "list", []⟩ = [] := attributesFrom_of_ended rfl
  have hopenList : ∀ position, Frame.ofTag position ⟨ascii "list", []⟩ =
      .ok ⟨"list", [], [], none⟩ := fun position => by
    rw [Frame.ofTag, hlist]
    rfl
  have htext : readText (ascii " a ") = .ok " a " := rfl
  simp only [Transcript.read, mixed, Reading.ofEvents, Reading.steps, Reading.step,
    Reading.openTag, Reading.emptyTag, Reading.closeTag, Reading.text, Reading.initial,
    hopenList, ofTag_ascii_item, htext]
  rfl

theorem read_trailed :
    (⟨trailed, none⟩ : Transcript).read = .error (.textOutsideRoot "a") := by
  have htext : readText (ascii " a ") = .ok " a " := rfl
  simp only [Transcript.read, trailed, Reading.ofEvents, Reading.steps, Reading.step,
    Reading.emptyTag, Reading.text, Reading.initial, ofTag_ascii_item, htext]
  rfl

/-- The catalogue is a document, and this is its tree.  A text that is not blank is refused
beside a child and outside of all elements. -/
theorem read_iff_isDocument_catalogue :
    WellNested [] catalogue ∧ IsDocument catalogue ∧
      (⟨catalogue, none⟩ : Transcript).read =
        .ok ⟨"list", [⟨"n", "1"⟩], [⟨"item", [], [], some "a<b"⟩, ⟨"item", [], [], none⟩], none⟩ ∧
      (openings 0 catalogue).map Opening.node? =
        [some ⟨0, "list", [⟨"n", "1"⟩], none⟩, some ⟨1, "item", [], some "a<b"⟩,
          some ⟨1, "item", [], none⟩] ∧
      (⟨mixed, none⟩ : Transcript).read = .error (.mixedContent "list") ∧ ¬IsDocument mixed ∧
      (⟨trailed, none⟩ : Transcript).read = .error (.textOutsideRoot "a") ∧
      ¬IsDocument trailed := by
  have hnested : WellNested [] catalogue := by simp [WellNested, catalogue, namesAfter]
  have hmixed : WellNested [] mixed := by simp [WellNested, mixed, namesAfter]
  have htrailed : WellNested [] trailed := by simp [WellNested, trailed, namesAfter]
  have ⟨hdocument, hnodes⟩ := ((read_iff_isDocument hnested).2 _).mp read_catalogue
  refine ⟨hnested, hdocument, read_catalogue, hnodes.symm, read_mixed, ?_, read_trailed, ?_⟩
  · rw [← (read_iff_isDocument hmixed).1, read_mixed]
    rintro ⟨t, ht⟩
    cases ht
  · rw [← (read_iff_isDocument htrailed).1, read_trailed]
    rintro ⟨t, ht⟩
    cases ht

end ElementGrammar.Xml
