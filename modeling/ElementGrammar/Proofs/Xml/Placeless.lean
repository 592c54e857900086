import Mathlib.Data.List.Forall2
import ElementGrammar.Proofs.Xml.Opening

/-!
# Errors without their positions

An error of the document says at which byte a construct starts, and one in a tag says also how
far from its start.  Two documents that differ in nothing else can have such errors at other
bytes.

* `TreeError.unplaced` is an error without the first of the two, `TreeError.placeless` one
  without both.
* `Forgets` is that a part of an error is all that the place and the spelling of a tag decide
  on.  `forgets_unplaced` is that where a tag starts makes no other difference, and
  `forgets_placeless` that the prefix of its name makes none but for the positions in it.

An attribute is looked for at a position and the position is only ever handed on, so each
function that looks for one gives the same from any (`nextAttribute_unplaced`).
-/

namespace ElementGrammar

namespace Xml

/-! ## Faults -/

/-- The fault at the start of its tag. -/
def AttributeFault.unplaced : AttributeFault → AttributeFault
  | .expectedEquals _ => .expectedEquals 0
  | .expectedValue _ => .expectedValue 0
  | .unquotedValue _ => .unquotedValue 0
  | .expectedQuote _ quote => .expectedQuote 0 quote

/-- The fault without a position in a tag. -/
def Fault.unplaced : Fault → Fault
  | .badAttribute fault => .badAttribute fault.unplaced
  | fault => fault

end Xml

namespace TreeError

/-- The error at the start of the document. -/
def unplaced : TreeError → TreeError
  | .xml fault _ => .xml fault 0
  | e => e

/-- The error at the start of the document, and at the start of the tag if it is in one. -/
def placeless : TreeError → TreeError
  | .xml fault _ => .xml fault.unplaced 0
  | e => e

end TreeError

namespace Xml

/-! ## Looking for attributes -/

/-- A step without its positions. -/
def AttributeStep.unplaced : AttributeStep → AttributeStep
  | .ended => .ended
  | .found raw _ rest => .found raw 0 rest
  | .fault cause => .fault cause.unplaced

theorem quotedValue_unplaced (name : List UInt8) (position position' : Nat)
    (bytes : List UInt8) :
    (quotedValue name position bytes).unplaced = (quotedValue name position' bytes).unplaced := by
  unfold quotedValue
  split
  · rfl
  · split
    · rfl
    · dsimp only
      split <;> rfl

theorem equalsValue_unplaced (name : List UInt8) (position position' : Nat)
    (bytes : List UInt8) :
    (equalsValue name position bytes).unplaced = (equalsValue name position' bytes).unplaced := by
  unfold equalsValue
  split
  · rfl
  · split
    · rfl
    · exact quotedValue_unplaced name _ _ _

/-- What stands at the front of the attributes does not depend on their position. -/
theorem nextAttribute_unplaced (position position' : Nat) (bytes : List UInt8) :
    (nextAttribute position bytes).unplaced = (nextAttribute position' bytes).unplaced := by
  unfold nextAttribute attributeAt
  split
  · rfl
  · exact equalsValue_unplaced _ _ _ _

theorem attributesFrom_of_fault {position : Nat} {bytes : List UInt8} {fault : AttributeFault}
    (h : nextAttribute position bytes = .fault fault) :
    attributesFrom position bytes = [.error fault] := by
  rw [attributesFrom]
  split <;> simp_all

/-- Values are the same, and so is a part of errors. -/
def Alike {ε ε' α : Type} (f : ε → ε') (x x' : Except ε α) : Prop :=
  x.mapError f = x'.mapError f

theorem Alike.bind {ε ε' α β : Type} {f : ε → ε'} {x x' : Except ε α} {k k' : α → Except ε β}
    (hx : Alike f x x') (hk : ∀ a, x = .ok a → Alike f (k a) (k' a)) :
    Alike f (x.bind k) (x'.bind k') := by
  cases x with
  | error e =>
    cases x' with
    | error e' =>
      injection hx with hx
      exact congrArg Except.error hx
    | ok a' => cases hx
  | ok a =>
    cases x' with
    | error e' => cases hx
    | ok a' =>
      injection hx with hx
      subst hx
      exact hk a rfl

/-- The attributes do not depend on their position, up to the position of a fault. -/
theorem attributesFrom_alike (position position' : Nat) (bytes : List UInt8) :
    List.Forall₂ (Alike AttributeFault.unplaced) (attributesFrom position bytes)
      (attributesFrom position' bytes) := by
  have hnext := nextAttribute_unplaced position position' bytes
  cases h : nextAttribute position bytes with
  | ended =>
    cases h' : nextAttribute position' bytes with
    | ended =>
      rw [attributesFrom_of_ended h, attributesFrom_of_ended h']
      exact .nil
    | _ => rw [h, h'] at hnext; cases hnext
  | fault cause =>
    cases h' : nextAttribute position' bytes with
    | fault cause' =>
      rw [h, h'] at hnext
      injection hnext with hcause
      rw [attributesFrom_of_fault h, attributesFrom_of_fault h']
      exact .cons (congrArg Except.error hcause) .nil
    | _ => rw [h, h'] at hnext; cases hnext
  | found raw next rest =>
    cases h' : nextAttribute position' bytes with
    | found raw' next' rest' =>
      rw [h, h'] at hnext
      injection hnext with hraw _ hrest
      subst hraw hrest
      have hshorter := nextAttribute_rest_lt h
      rw [attributesFrom_of_found h, attributesFrom_of_found h']
      exact .cons rfl (attributesFrom_alike next next' rest)
    | _ => rw [h, h'] at hnext; cases hnext
termination_by bytes.length

/-! ## Opening a tag -/

section Opening

variable {f : TreeError → TreeError} {element : String} {attrs : Attributes}

/-- Attributes that are alike are added alike. -/
theorem addAttributes_alike {items items' : List (Except TreeError Attribute)}
    (h : List.Forall₂ (Alike f) items items') :
    Alike f (addAttributes element attrs items) (addAttributes element attrs items') := by
  induction h generalizing attrs with
  | nil => rfl
  | @cons item item' _ _ hitem _ ih =>
    cases item with
    | error e =>
      cases item' with
      | error e' =>
        injection hitem with hitem
        exact congrArg Except.error hitem
      | ok a' => cases hitem
    | ok a =>
      cases item' with
      | error e' => cases hitem
      | ok a' =>
        injection hitem with hitem
        rw [hitem, addAttributes, addAttributes]
        split
        · rfl
        · exact ih

/-- An element is opened from its name and from its attributes. -/
theorem ofTag_eq (position : Nat) (tag : Tag) :
    Frame.ofTag position tag =
      match Text.Utf8.decode (localPart tag.name) with
      | .error malformed => .error (.invalidName malformed (localPart tag.name))
      | .ok name =>
        (addAttributes name [] (tag.rawAttributes.map (decodeAttribute position))).bind
          fun attrs => .ok ⟨name, attrs, [], none⟩ := by
  unfold Frame.ofTag
  dsimp only
  cases Text.Utf8.decode (localPart tag.name) with
  | error malformed => rfl
  | ok name =>
    dsimp only
    cases addAttributes name [] (tag.rawAttributes.map (decodeAttribute position)) <;> rfl

/-- Tags of one local name open alike where their attributes are alike. -/
theorem ofTag_alike {tag tag' : Tag} {position position' : Nat}
    (hname : localPart tag'.name = localPart tag.name)
    (hattrs : List.Forall₂
      (fun raw raw' => Alike f (decodeAttribute position raw) (decodeAttribute position' raw'))
      tag.rawAttributes tag'.rawAttributes) :
    Alike f (Frame.ofTag position tag) (Frame.ofTag position' tag') := by
  rw [ofTag_eq, ofTag_eq, hname]
  split
  · rfl
  · rename_i name _
    have hitems : List.Forall₂ (Alike f) (tag.rawAttributes.map (decodeAttribute position))
        (tag'.rawAttributes.map (decodeAttribute position')) := by
      rw [List.forall₂_map_left_iff, List.forall₂_map_right_iff]
      exact hattrs
    exact (addAttributes_alike hitems).bind fun _ _ => rfl

end Opening

/-! ## What a spelling decides on -/

/-- A part of an error in which neither a position shows nor which of two spellings a tag
has. -/
structure Forgets (f : TreeError → TreeError) (Respells : Tag → Tag → Prop) : Prop where
  same : ∀ tag, Respells tag tag
  place : ∀ fault position position', f (.xml fault position) = f (.xml fault position')
  opening : ∀ {tag tag'} position position', Respells tag tag' →
    Alike f (Frame.ofTag position tag) (Frame.ofTag position' tag')

/-- Tags that differ in the prefix of their name only. -/
structure Tag.SameLocal (tag tag' : Tag) : Prop where
  name : localPart tag'.name = localPart tag.name
  rest : tag'.rest = tag.rest

/-- An attribute that is found is decoded alike where errors are without their place. -/
theorem decodeAttribute_ok_alike {f : TreeError → TreeError} (position position' : Nat)
    (hplace : ∀ fault, f (.xml fault position) = f (.xml fault position')) (raw : RawAttribute) :
    Alike f (decodeAttribute position (.ok raw)) (decodeAttribute position' (.ok raw)) := by
  unfold decodeAttribute
  dsimp only
  split
  · rfl
  · split
    · exact congrArg Except.error (hplace _)
    · rfl

/-- Where a tag starts is only in the position of an error. -/
theorem forgets_unplaced : Forgets TreeError.unplaced Eq where
  same _ := rfl
  place _ _ _ := rfl
  opening position position' h := by
    subst h
    refine ofTag_alike rfl (List.forall₂_same.mpr fun raw _ => ?_)
    cases raw with
    | error fault => rfl
    | ok raw => exact decodeAttribute_ok_alike position position' (fun _ => rfl) raw

/-- The prefix of a name is only in the positions of an error. -/
theorem forgets_placeless : Forgets TreeError.placeless Tag.SameLocal where
  same _ := ⟨rfl, rfl⟩
  place _ _ _ := rfl
  opening {tag tag'} position position' h := by
    have hraw : List.Forall₂ (Alike AttributeFault.unplaced) tag.rawAttributes
        tag'.rawAttributes := by
      unfold Tag.rawAttributes
      rw [h.rest]
      exact attributesFrom_alike _ _ _
    refine ofTag_alike h.name (hraw.imp fun raw raw' hraw => ?_)
    cases raw with
    | error fault =>
      cases raw' with
      | error fault' =>
        injection hraw with hfault
        exact congrArg (fun fault => Except.error (TreeError.xml (.badAttribute fault) 0)) hfault
      | ok raw' => cases hraw
    | ok raw =>
      cases raw' with
      | error fault' => cases hraw
      | ok raw' =>
        injection hraw with hraw
        subst hraw
        exact decodeAttribute_ok_alike position position' (fun _ => rfl) raw

end Xml

end ElementGrammar
