import ElementGrammar.Proofs.Text.OneLine
import ElementGrammar.Proofs.Tree.Preorder
import ElementGrammar.Proofs.Tree.Proper
import ElementGrammar.Tree.Dump

/-!
# The lines of a dump

A dump has a line for each element and one for each text.  A text is cut to one line, but a
name or an attribute stands in its line as it is, with any line feed in it.

* `Node.lines` are the lines of one element, at its depth.  `Element.Proper.lines_eq` is that
  the dump has those of each element in document order and no others.
* `Node.Plain` is that no name and no attribute of an element holds a line feed, which is when
  its lines are single ones (`Node.oneLine_lines_iff`).  `Element.Plain` says it of a whole
  tree.
-/

namespace ElementGrammar

open Text (OneLine oneLine_append oneLine_intercalate)

/-! ## Single lines -/

theorem textChar_ne_lineFeed (c : Char) : '\n' ∉ textChar c := by
  unfold textChar
  split
  · decide
  · rename_i hc
    intro h
    exact hc (List.mem_singleton.mp h).symm

/-- A text is cut to one line, whatever it is. -/
theorem oneLine_formatText (s : String) : OneLine (formatText s) := by
  intro h
  rw [formatText, String.toList_ofList] at h
  obtain ⟨c, _, hc⟩ := List.mem_flatMap.mp h
  exact textChar_ne_lineFeed c hc

/-- An attribute with no line feed in its name or in its value. -/
def Attribute.Plain (a : Attribute) : Prop :=
  OneLine a.name ∧ OneLine a.value

theorem Attribute.oneLine_text_iff (a : Attribute) : OneLine a.text ↔ a.Plain := by
  have hsign : OneLine "=" := by decide
  rw [Attribute.text, oneLine_append, oneLine_append]
  exact and_congr_left fun _ => and_iff_left hsign

theorem Attributes.oneLine_text_iff (as : Attributes) :
    OneLine as.text ↔ ∀ a ∈ as, a.Plain := by
  rw [Attributes.text, oneLine_intercalate (by decide), List.forall_mem_map]
  exact forall₂_congr fun a _ => a.oneLine_text_iff

/-- An element is named on one line where its name and its attributes are plain. -/
theorem Element.oneLine_intro_iff (e : Element) :
    OneLine e.intro ↔ OneLine e.name ∧ ∀ a ∈ e.attrs, a.Plain := by
  unfold Element.intro
  cases hattrs : e.attrs with
  | nil => simp
  | cons a as =>
    have hsign : OneLine " @ " := by decide
    rw [← hattrs, if_neg (by simp [hattrs]), oneLine_append, oneLine_append,
      Attributes.oneLine_text_iff]
    exact and_congr_left fun _ => and_iff_left hsign

/-! ## The lines of one element -/

/-- The columns in front of what stands at a depth. -/
def indentation (depth : Nat) : String :=
  String.ofList (List.replicate (2 * depth) ' ')

theorem indentation_succ (depth : Nat) : indentation (depth + 1) = indentation depth ++ "  " := by
  rw [indentation, Nat.mul_add, List.replicate_add, String.ofList_append]
  rfl

theorem oneLine_indentation (depth : Nat) : OneLine (indentation depth) :=
  Text.oneLine_spaces (2 * depth)

namespace Node

/-- The element alone, without anything inside. -/
def element (n : Node) : Element :=
  ⟨n.name, n.attrs, [], none⟩

/-- The lines of an element in a dump, without those of its children. -/
def lines (n : Node) : List String :=
  (n.element.heading :: n.text.toList.map Element.textLine).map (indentation n.depth ++ ·)

/-- An element whose name and attributes hold no line feed. -/
structure Plain (n : Node) : Prop where
  name : OneLine n.name
  attrs : ∀ a ∈ n.attrs, a.Plain

theorem oneLine_heading_iff (n : Node) : OneLine n.element.heading ↔ n.Plain := by
  have hsign : OneLine "- " := by decide
  rw [Element.heading, oneLine_append, and_iff_right hsign, Element.oneLine_intro_iff]
  exact ⟨fun h => ⟨h.1, h.2⟩, fun h => ⟨h.name, h.attrs⟩⟩

/-- The lines of an element are single ones where it is plain. -/
theorem oneLine_lines_iff (n : Node) : (∀ line ∈ n.lines, OneLine line) ↔ n.Plain := by
  have htext : ∀ line ∈ n.text.toList.map Element.textLine, OneLine line := by
    intro line hline
    obtain ⟨text, _, rfl⟩ := List.mem_map.mp hline
    exact oneLine_append.mpr ⟨by decide, oneLine_formatText text⟩
  have hindented : ∀ line, OneLine (indentation n.depth ++ line) ↔ OneLine line := fun line =>
    oneLine_append.trans (and_iff_right (oneLine_indentation n.depth))
  rw [lines, List.forall_mem_map]
  simp only [hindented]
  rw [List.forall_mem_cons, and_iff_left htext, oneLine_heading_iff]

end Node

/-! ## The lines of a tree -/

namespace Element

variable {e : Element}

/-- The lines of an element and of what is inside. -/
theorem lines_eq_cons (e : Element) :
    e.lines = e.heading ::
      match e.text with
      | some text => [textLine text]
      | none => (linesOfAll e.children).map indented := by
  cases e
  unfold lines
  rfl

theorem linesOfAll_eq_flatMap (es : List Element) : linesOfAll es = es.flatMap lines := by
  induction es with
  | nil => rfl
  | cons e es ih => rw [linesOfAll, ih, List.flatMap_cons]

theorem preorderAll_eq_flatMap (depth : Nat) (es : List Element) :
    preorderAll depth es = es.flatMap (preorder depth) := by
  induction es with
  | nil => rfl
  | cons e es ih => rw [preorderAll, ih, List.flatMap_cons]

/-- What is dumped at a depth are the lines of each element from there. -/
theorem Proper.flatMap_lines (h : e.Proper) (depth : Nat) :
    (e.preorder depth).flatMap Node.lines = e.lines.map (indentation depth ++ ·) := by
  induction h generalizing depth with
  | @intro e built distinct inside ih =>
    rw [preorder_eq_cons, List.flatMap_cons, lines_eq_cons]
    cases htext : e.text with
    | some text =>
      have hproper : e.Proper := .intro built distinct inside
      rw [hproper.toBuilt.children_eq_nil htext]
      rfl
    | none =>
      have hinside : ∀ c ∈ e.children, (c.preorder (depth + 1)).flatMap Node.lines =
          (c.lines.map indented).map (indentation depth ++ ·) := by
        intro c hc
        rw [ih c hc (depth + 1), List.map_map]
        refine List.map_congr_left fun line _ => ?_
        rw [indentation_succ, String.append_assoc]
        rfl
      rw [preorderAll_eq_flatMap, linesOfAll_eq_flatMap, List.flatMap_assoc,
        List.flatMap_congr hinside, List.map_cons, List.map_flatMap, List.map_flatMap]
      rfl

/-- A dump has the lines of each element in document order, and no others. -/
theorem Proper.lines_eq (h : e.Proper) : e.lines = (e.preorder 0).flatMap Node.lines := by
  have hnothing : (indentation 0 ++ ·) = (id : String → String) :=
    funext fun _ => String.empty_append
  rw [h.flatMap_lines 0, hnothing, List.map_id]

theorem lines_ne_nil (e : Element) : e.lines ≠ [] := by
  rw [lines_eq_cons]
  exact List.cons_ne_nil _ _

/-- The lines of a dump are single ones where every element is plain. -/
theorem Proper.oneLine_lines_iff (h : e.Proper) :
    (∀ line ∈ e.lines, OneLine line) ↔ ∀ node ∈ e.preorder 0, node.Plain := by
  rw [h.lines_eq, List.forall_mem_flatMap]
  exact forall₂_congr fun node _ => node.oneLine_lines_iff

/-- Then they are the lines that the dump is shown on. -/
theorem Proper.physicalLines_dump (h : e.Proper) (hplain : ∀ node ∈ e.preorder 0, node.Plain) :
    Text.physicalLines e.dump = (e.preorder 0).flatMap Node.lines := by
  rw [dump, ← h.lines_eq]
  exact Text.physicalLines_intercalate e.lines_ne_nil (h.oneLine_lines_iff.mpr hplain)

/-- An element that is plain, and holds elements of this kind only. -/
inductive Plain : Element → Prop where
  | intro {e : Element} (name : OneLine e.name) (attrs : ∀ a ∈ e.attrs, a.Plain)
    (inside : ∀ c ∈ e.children, Plain c) : Plain e

theorem Proper.plain_iff (h : e.Proper) (depth : Nat) :
    e.Plain ↔ ∀ node ∈ e.preorder depth, node.Plain := by
  induction h generalizing depth with
  | @intro e _ _ _ ih =>
    rw [preorder_eq_cons, preorderAll_eq_flatMap, List.forall_mem_cons, List.forall_mem_flatMap]
    constructor
    · intro hplain
      cases hplain with
      | intro name attrs inside =>
        exact ⟨⟨name, attrs⟩, fun c hc => (ih c hc (depth + 1)).mp (inside c hc)⟩
    · intro hplain
      obtain ⟨⟨name, attrs⟩, hinside⟩ := hplain
      exact .intro name attrs fun c hc => (ih c hc (depth + 1)).mpr (hinside c hc)

end Element

end ElementGrammar
