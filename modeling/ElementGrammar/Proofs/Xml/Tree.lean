import Mathlib.Data.List.TakeWhile
import ElementGrammar.Proofs.Text.OneLine
import ElementGrammar.Proofs.Tree.Proper
import ElementGrammar.Proofs.Xml.Reading

/-!
# Trees that are read

What every tree is like that comes from the bytes of a document.

* Elements are closed one by one, each from distinct attributes and from children that were
  closed before.  `Reading.Proper` is kept by every event, so the tree is proper
  (`readBytes_proper`).
* A tag is cut at spaces, and a line feed is one of them.  So no name of an element or of an
  attribute has a line feed in it (`oneLine_names`).  Of values nothing like that is true.
-/

namespace ElementGrammar.Xml

open Text (OneLine)

variable {position : Nat} {tag : Tag} {frame : Frame} {element : Element}

/-! ## Elements that can be there -/

theorem eq_of_new? {name : String} {attrs : Attributes} {children : List Element}
    {text : Option String} (h : Element.new? name attrs children text = .ok element) :
    element = ⟨name, attrs, children, text⟩ := by
  unfold Element.new? at h
  split at h
  · cases h
  · split at h
    · cases h
    · injection h with h
      exact h.symm

namespace Frame

/-- An open element with distinct attributes and with children that can be there. -/
structure Proper (frame : Frame) : Prop where
  distinct : frame.attrs.Distinct
  inside : ∀ c ∈ frame.children, c.Proper

theorem proper_of_ofTag (h : Frame.ofTag position tag = .ok frame) : frame.Proper := by
  obtain ⟨name, attrs, _, _, hdistinct, rfl⟩ := Frame.ofTag_eq_ok_iff.mp h
  exact ⟨hdistinct, fun _ hc => absurd hc List.not_mem_nil⟩

theorem Proper.addText (h : frame.Proper) (text : String) : (frame.addText text).Proper :=
  ⟨h.distinct, h.inside⟩

theorem Proper.addChild (h : frame.Proper) (helement : element.Proper) :
    (frame.addChild element).Proper := by
  refine ⟨h.distinct, ?_⟩
  intro c hc
  rcases List.mem_append.mp hc with hc | hc
  · exact h.inside c hc
  · rw [List.mem_singleton.mp hc]
    exact helement

theorem Proper.close (h : frame.Proper) (hclose : frame.close = .ok element) :
    element.Proper := by
  rw [Frame.close] at hclose
  have helement := eq_of_new? hclose
  subst helement
  exact .intro hclose h.distinct h.inside

end Frame

namespace Reading

variable {r r' : Reading}

/-- What has been read can be there, as far as it goes. -/
structure Proper (r : Reading) : Prop where
  openFrames : ∀ frame ∈ r.openFrames, frame.Proper
  root : ∀ e ∈ r.root, e.Proper

theorem proper_initial : initial.Proper where
  openFrames := fun _ h => absurd h List.not_mem_nil
  root := fun _ h => by cases h

theorem Proper.push (h : r.Proper) (hframe : frame.Proper) :
    Proper { r with openFrames := frame :: r.openFrames } where
  openFrames := List.forall_mem_cons.mpr ⟨hframe, h.openFrames⟩
  root := h.root

theorem Proper.pop {outer : List Frame} (h : r.Proper) (hopen : r.openFrames = frame :: outer) :
    frame.Proper ∧ Proper { r with openFrames := outer } := by
  have hframes := h.openFrames
  rw [hopen, List.forall_mem_cons] at hframes
  exact ⟨hframes.1, hframes.2, h.root⟩

theorem Proper.complete (h : r.Proper) (helement : element.Proper)
    (hcomplete : r.complete element = .ok r') : r'.Proper := by
  unfold Reading.complete at hcomplete
  split at hcomplete
  · rename_i frame outer hopen
    obtain ⟨hframe, houter⟩ := h.pop hopen
    injection hcomplete with hcomplete
    rw [← hcomplete]
    exact houter.push (hframe.addChild helement)
  · split at hcomplete
    · cases hcomplete
    · injection hcomplete with hcomplete
      rw [← hcomplete]
      refine ⟨h.openFrames, ?_⟩
      intro e he
      rw [← Option.mem_some_iff.mp he]
      exact helement

/-- One event. -/
theorem Proper.step {e : Located Event} (h : r.Proper) (hstep : r.step e = .ok r') :
    r'.Proper := by
  obtain ⟨position, event⟩ := e
  cases advances_of_step hstep with
  | opened hframe => exact h.push (Frame.proper_of_ofTag hframe)
  | emptied hframe hclose hcomplete =>
    exact h.complete ((Frame.proper_of_ofTag hframe).close hclose) hcomplete
  | closed hopen hclose hcomplete =>
    obtain ⟨hframe, houter⟩ := h.pop hopen
    exact houter.complete (hframe.close hclose) hcomplete
  | texted hopen =>
    obtain ⟨hframe, houter⟩ := h.pop hopen
    exact houter.push (hframe.addText _)
  | passed => exact h

/-- All events. -/
theorem Proper.steps {es : List (Located Event)} (h : r.Proper) (hsteps : r.steps es = .ok r') :
    r'.Proper := by
  induction es generalizing r with
  | nil =>
    injection hsteps with hsteps
    exact hsteps ▸ h
  | cons e es ih =>
    unfold Reading.steps at hsteps
    split at hsteps
    · cases hsteps
    · rename_i r₁ hstep
      exact ih (h.step hstep) hsteps

end Reading

/-- A tree that is read from a document can be there. -/
theorem readBytes_proper {bytes : List UInt8} {e : Element} (h : readBytes bytes = .ok e) :
    e.Proper := by
  unfold readBytes Transcript.read at h
  split at h
  · unfold Reading.ofEvents at h
    split at h
    · cases h
    · rename_i r hsteps
      have hproper := Reading.proper_initial.steps hsteps
      unfold Reading.finish at h
      split at h
      · cases h
      · rename_i root _ hroot
        injection h with h
        exact h ▸ hproper.root root hroot
      · cases h
  · split at h <;> cases h

/-! ## Names -/

theorem lineFeed_isSpace : isSpace Text.Utf8.lineFeed = true := by
  decide

/-- Nothing that is cut before spaces has a line feed in it. -/
theorem lineFeed_notMem_takeWhile {p : UInt8 → Bool} (hp : p Text.Utf8.lineFeed = false)
    (bytes : List UInt8) : Text.Utf8.lineFeed ∉ bytes.takeWhile p := by
  intro h
  have htrue := List.mem_takeWhile_imp h
  rw [hp] at htrue
  cases htrue

theorem localPart_subset (name : List UInt8) : localPart name ⊆ name := by
  intro b hb
  have hreversed := List.mem_reverse.mp hb
  exact List.mem_reverse.mp ((List.takeWhile_sublist _).subset hreversed)

theorem lineFeed_notMem_name (content : List UInt8) :
    Text.Utf8.lineFeed ∉ (Tag.ofContent content).name :=
  lineFeed_notMem_takeWhile (by decide) content

theorem quotedValue_name {name bytes rest : List UInt8} {next : Nat} {raw : RawAttribute}
    (h : quotedValue name position bytes = .found raw next rest) : raw.name = name := by
  unfold quotedValue at h
  split at h
  · cases h
  · split at h
    · cases h
    · dsimp only at h
      split at h
      · cases h
      · injection h with hraw _ _
        rw [← hraw]

theorem equalsValue_name {name bytes rest : List UInt8} {next : Nat} {raw : RawAttribute}
    (h : equalsValue name position bytes = .found raw next rest) : raw.name = name := by
  unfold equalsValue at h
  split at h
  · cases h
  · split at h
    · cases h
    · exact quotedValue_name h

/-- The name of an attribute starts after spaces and ends before one. -/
theorem nextAttribute_name {bytes rest : List UInt8} {next : Nat} {raw : RawAttribute}
    (h : nextAttribute position bytes = .found raw next rest) :
    Text.Utf8.lineFeed ∉ raw.name := by
  unfold nextAttribute attributeAt at h
  split at h
  · cases h
  · rename_i first tail hbytes
    rw [equalsValue_name h]
    have hfirst : isSpace first = false := by
      have hne : bytes.dropWhile isSpace ≠ [] := by simp [hbytes]
      have hhead := List.head_dropWhile_not isSpace hne
      simpa [hbytes] using hhead
    refine List.not_mem_cons_of_ne_of_not_mem ?_ (lineFeed_notMem_takeWhile (by decide) tail)
    intro heq
    rw [← heq, lineFeed_isSpace] at hfirst
    cases hfirst

theorem attributesFrom_names (position : Nat) (bytes : List UInt8) :
    ∀ raw, .ok raw ∈ attributesFrom position bytes → Text.Utf8.lineFeed ∉ raw.name := by
  fun_induction attributesFrom position bytes with
  | case1 => simp
  | case2 => simp
  | case3 position bytes found next rest hnext ih =>
    intro raw hraw
    rcases List.mem_cons.mp hraw with heq | hraw
    · injection heq with heq
      rw [heq]
      exact nextAttribute_name hnext
    · exact ih raw hraw

/-- The tag of an event that opens an element. -/
def Event.tag? : Event → Option Tag
  | .startTag tag | .emptyTag tag => some tag
  | _ => none

theorem bangStep_tag? {bytes rest : List UInt8} {event : Event}
    (h : bangStep bytes = .event event rest) : event.tag? = none := by
  unfold bangStep cdataStep commentStep doctypeStep at h
  dsimp only at h
  repeat' split at h
  all_goals cases h
  all_goals rfl

theorem closingStep_tag? {names : List (List UInt8)} {bytes rest : List UInt8} {event : Event}
    (h : closingStep names bytes = .event event rest) : event.tag? = none := by
  unfold closingStep at h
  dsimp only at h
  repeat' split at h
  all_goals cases h
  all_goals rfl

theorem questionStep_tag? {bytes rest : List UInt8} {event : Event}
    (h : questionStep bytes = .event event rest) : event.tag? = none := by
  unfold questionStep at h
  dsimp only at h
  repeat' split at h
  all_goals cases h
  all_goals rfl

/-- An opening tag is cut from its content after the name. -/
theorem openingStep_tag? {bytes rest : List UInt8} {event : Event}
    (h : openingStep bytes = .event event rest) :
    ∃ content, event.tag? = some (Tag.ofContent content) := by
  unfold openingStep at h
  dsimp only at h
  split at h
  all_goals cases h
  all_goals exact ⟨_, rfl⟩

theorem nextEvent_tag? {names : List (List UInt8)} {bytes rest : List UInt8} {event : Event}
    (h : nextEvent names bytes = .event event rest) :
    ∀ tag ∈ event.tag?, Text.Utf8.lineFeed ∉ tag.name := by
  have hnone : event.tag? = none → ∀ tag ∈ event.tag?, Text.Utf8.lineFeed ∉ tag.name := by
    intro hevent tag htag
    rw [hevent] at htag
    cases htag
  rcases nextEvent_cases h with hbang | hclosing | hquestion | hopening | htext
  · obtain ⟨_, hbang⟩ := hbang
    exact hnone (bangStep_tag? hbang)
  · obtain ⟨_, hclosing⟩ := hclosing
    exact hnone (closingStep_tag? hclosing)
  · obtain ⟨_, hquestion⟩ := hquestion
    exact hnone (questionStep_tag? hquestion)
  · obtain ⟨_, hopening⟩ := hopening
    obtain ⟨content, hcontent⟩ := openingStep_tag? hopening
    intro tag htag
    rw [hcontent, Option.mem_some_iff] at htag
    rw [← htag]
    exact lineFeed_notMem_name content
  · obtain ⟨_, rfl⟩ := htext
    exact hnone rfl

theorem transcribe_tag? (position : Nat) (names : List (List UInt8)) (bytes : List UInt8) :
    ∀ e ∈ (transcribe position names bytes).events, ∀ tag ∈ e.item.tag?,
      Text.Utf8.lineFeed ∉ tag.name := by
  fun_induction transcribe position names bytes with
  | case1 | case2 =>
    intro e he
    exact absurd he List.not_mem_nil
  | case3 position names bytes event rest hnext after ih =>
    exact List.forall_mem_cons.mpr ⟨nextEvent_tag? hnext, ih⟩

/-- The opening tags are those of the events. -/
theorem openings_tag? {depth : Nat} {events : List (Located Event)} :
    ∀ o ∈ openings depth events, ∃ e ∈ events, e.item.tag? = some o.tag := by
  induction events generalizing depth with
  | nil =>
    intro o ho
    exact absurd ho List.not_mem_nil
  | cons e es ih =>
    have hlater : ∀ {depth o}, o ∈ openings depth es → ∃ e' ∈ e :: es, e'.item.tag? = some o.tag := by
      intro depth o ho
      obtain ⟨e', he', htag⟩ := ih o ho
      exact ⟨e', List.mem_cons_of_mem _ he', htag⟩
    intro o ho
    by_cases hopening : e.item.isOpening
    · obtain ⟨position, event⟩ := e
      cases event with
      | startTag tag | emptyTag tag =>
        rcases List.mem_cons.mp ho with rfl | ho
        · exact ⟨_, List.mem_cons_self, rfl⟩
        · exact hlater ho
      | _ => cases hopening
    · rw [Reading.openings_cons_of_not (by simpa using hopening)] at ho
      exact hlater ho

/-! ## Names in the tree -/

theorem exists_of_mem_mapM {α β : Type} {f : α → Option β} {xs : List α} {ys : List β}
    (h : xs.mapM f = some ys) : ∀ y ∈ ys, ∃ x ∈ xs, f x = some y := by
  induction xs generalizing ys with
  | nil =>
    rw [List.mapM_nil] at h
    injection h with h
    rw [← h]
    exact fun _ hy => absurd hy List.not_mem_nil
  | cons x xs ih =>
    rw [List.mapM_cons] at h
    obtain ⟨y, hy, h⟩ := Option.bind_eq_some_iff.mp h
    obtain ⟨rest, hrest, h⟩ := Option.bind_eq_some_iff.mp h
    injection h with h
    rw [← h, List.forall_mem_cons]
    refine ⟨⟨x, List.mem_cons_self, hy⟩, fun y' hy' => ?_⟩
    obtain ⟨x', hx', hxy⟩ := ih hrest y' hy'
    exact ⟨x', List.mem_cons_of_mem _ hx', hxy⟩

theorem RawAttribute.oneLine_name {raw : RawAttribute} {a : Attribute}
    (hraw : Text.Utf8.lineFeed ∉ raw.name) (h : raw.attribute? = some a) : OneLine a.name := by
  unfold RawAttribute.attribute? at h
  split at h
  · rename_i name value hname _
    injection h with h
    rw [← h]
    exact Text.Utf8.oneLine_decode hraw hname
  · cases h

/-- The attributes of a tag have names on one line. -/
theorem Tag.oneLine_attributes {attrs : Attributes} (h : tag.attributes? = some attrs) :
    ∀ a ∈ attrs, OneLine a.name := by
  intro a ha
  obtain ⟨item, hitem, hattribute⟩ := exists_of_mem_mapM h a ha
  obtain ⟨raw, hraw, hattribute⟩ := Option.bind_eq_some_iff.mp hattribute
  have hok : item = .ok raw := by
    cases item with
    | error fault => cases hraw
    | ok raw' => exact congrArg Except.ok (Option.some.inj hraw)
  rw [hok] at hitem
  exact RawAttribute.oneLine_name (attributesFrom_names _ _ raw hitem) hattribute

/-- So has the tag itself where there is no line feed before its first space. -/
theorem Tag.oneLine_localName {name : String} (htag : Text.Utf8.lineFeed ∉ tag.name)
    (h : tag.localName? = some name) : OneLine name := by
  have hlocal : Text.Utf8.lineFeed ∉ localPart tag.name :=
    fun hmem => htag (localPart_subset tag.name hmem)
  unfold Tag.localName? at h
  cases hdecode : Text.Utf8.decode (localPart tag.name) with
  | error malformed =>
    rw [hdecode] at h
    cases h
  | ok decoded =>
    rw [hdecode] at h
    injection h with h
    exact h ▸ Text.Utf8.oneLine_decode hlocal hdecode

theorem Opening.oneLine_names {o : Opening} {n : Node} (htag : Text.Utf8.lineFeed ∉ o.tag.name)
    (hnode : o.node? = some n) : OneLine n.name ∧ ∀ a ∈ n.attrs, OneLine a.name := by
  unfold Opening.node? at hnode
  split at hnode
  · rename_i name attrs hname hattrs
    injection hnode with hnode
    rw [← hnode]
    exact ⟨Tag.oneLine_localName htag hname, Tag.oneLine_attributes hattrs⟩
  · cases hnode

/-- In a tree that is read the names of elements and of attributes are on one line. -/
theorem oneLine_names {bytes : List UInt8} {e : Element} (h : readBytes bytes = .ok e) :
    ∀ n ∈ e.preorder 0, OneLine n.name ∧ ∀ a ∈ n.attrs, OneLine a.name := by
  have hnested : WellNested [] (Transcript.ofBytes bytes).events :=
    transcribe_wellNested 0 [] (dropByteOrderMark bytes)
  have htags : ∀ event ∈ (Transcript.ofBytes bytes).events, ∀ tag ∈ event.item.tag?,
      Text.Utf8.lineFeed ∉ tag.name := transcribe_tag? 0 [] (dropByteOrderMark bytes)
  obtain ⟨hfault, _⟩ := (readBytes_iff bytes).mp ⟨e, h⟩
  rw [readBytes] at h
  generalize Transcript.ofBytes bytes = transcript at hnested htags hfault h
  obtain ⟨events, fault⟩ := transcript
  obtain rfl : fault = none := hfault
  obtain ⟨_, hnodes⟩ := (exists_read_iff hnested _).mp ⟨e, h, rfl⟩
  intro n hn
  have hsome : some n ∈ (openings 0 events).map Opening.node? := by
    rw [hnodes]
    exact List.mem_map_of_mem hn
  obtain ⟨o, ho, hnode⟩ := List.mem_map.mp hsome
  obtain ⟨event, hevent, htag⟩ := openings_tag? o ho
  exact Opening.oneLine_names (htags event hevent o.tag htag) hnode

end ElementGrammar.Xml
