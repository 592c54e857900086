import ElementGrammar.Tree.Attribute

/-!
# Elements

An element has a name, attributes, and either child elements or a text.
Equality is structural and decidable; `Element.height` is the number of
elements on the longest path down.
-/

namespace ElementGrammar

/-- An element of a tree. -/
structure Element where
  name : String
  attrs : Attributes
  children : List Element
  text : Option String

namespace Element

instance : Inhabited Element := ⟨⟨"", [], [], none⟩⟩

/-! ## Equality -/

mutual

def decEq : (a b : Element) → Decidable (a = b)
  | ⟨name, attrs, children, text⟩, ⟨name', attrs', children', text'⟩ =>
    if h : name = name' ∧ attrs = attrs' ∧ text = text' then
      match decEqList children children' with
      | isTrue hc => isTrue (by rw [h.1, h.2.1, h.2.2, hc])
      | isFalse hc => isFalse fun he => by injection he; contradiction
    else isFalse fun he => by injection he; exact h ⟨‹_›, ‹_›, ‹_›⟩

def decEqList : (as bs : List Element) → Decidable (as = bs)
  | [], [] => isTrue rfl
  | [], _ :: _ => isFalse (by simp)
  | _ :: _, [] => isFalse (by simp)
  | a :: as, b :: bs =>
    match decEq a b, decEqList as bs with
    | isTrue h, isTrue hs => isTrue (by rw [h, hs])
    | isFalse h, _ => isFalse (by simp [h])
    | _, isFalse h => isFalse (by simp [h])

end

instance : DecidableEq Element := decEq

/-! ## Size -/

mutual

/-- The number of elements on the longest path from this one down. -/
def height : Element → Nat
  | ⟨_, _, children, _⟩ => heightOfAll children + 1

def heightOfAll : List Element → Nat
  | [] => 0
  | e :: es => max (height e) (heightOfAll es)

end

mutual

/-- The number of elements, attributes and texts in the tree. -/
def size : Element → Nat
  | ⟨_, attrs, children, text⟩ =>
    attrs.length + sizeOfAll children + (if text.isSome then 1 else 0) + 1

def sizeOfAll : List Element → Nat
  | [] => 0
  | e :: es => size e + sizeOfAll es

end

end Element

end ElementGrammar
