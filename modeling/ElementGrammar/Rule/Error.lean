import ElementGrammar.Tree.Element

/-!
# Errors of rules

A rule that does not match an element says why.  The errors of the attempts
that it made on the way are part of the answer, so an error is a tree: it holds
the errors of children and of alternatives, each with the element that it is
about.  Equality is structural and decidable.
-/

namespace ElementGrammar

/-- A child element with the errors of all attempts on it, oldest first. -/
structure Slot (ε : Type) where
  element : Element
  errors : List ε
  deriving DecidableEq

/-- A child element with the error of one attempt on it. -/
structure Blame (ε : Type) where
  child : Element
  error : ε
  deriving DecidableEq

/-- Why a rule did not match an element. -/
inductive ParseError where
  | other (message : String)
  /-- Attributes, children or a text that the rule left. -/
  | remainingItems (element : Element) (attrs : Attributes)
      (children : List (Slot ParseError)) (text : Option String)
  /-- No child of the element is the one that was asked for. -/
  | noMatchingChild (element : Element) (tried : List (Blame ParseError))
  /-- No alternative matches the element. -/
  | noMatchingVariant (element : Element) (tried : List ParseError)

namespace ParseError

instance : Inhabited ParseError := ⟨.other ""⟩

mutual

def decEq : (a b : ParseError) → Decidable (a = b)
  | .other message, .other message' =>
    if h : message = message' then isTrue (by rw [h])
    else isFalse fun he => by injection he; contradiction
  | .remainingItems element attrs children text,
      .remainingItems element' attrs' children' text' =>
    if h : element = element' ∧ attrs = attrs' ∧ text = text' then
      match decEqSlots children children' with
      | isTrue hc => isTrue (by rw [h.1, h.2.1, h.2.2, hc])
      | isFalse hc => isFalse fun he => by injection he; contradiction
    else isFalse fun he => by injection he; exact h ⟨‹_›, ‹_›, ‹_›⟩
  | .noMatchingChild element tried, .noMatchingChild element' tried' =>
    if h : element = element' then
      match decEqBlames tried tried' with
      | isTrue ht => isTrue (by rw [h, ht])
      | isFalse ht => isFalse fun he => by injection he; contradiction
    else isFalse fun he => by injection he; contradiction
  | .noMatchingVariant element tried, .noMatchingVariant element' tried' =>
    if h : element = element' then
      match decEqAll tried tried' with
      | isTrue ht => isTrue (by rw [h, ht])
      | isFalse ht => isFalse fun he => by injection he; contradiction
    else isFalse fun he => by injection he; contradiction
  | .other _, .remainingItems .. => isFalse (by simp)
  | .other _, .noMatchingChild .. => isFalse (by simp)
  | .other _, .noMatchingVariant .. => isFalse (by simp)
  | .remainingItems .., .other _ => isFalse (by simp)
  | .remainingItems .., .noMatchingChild .. => isFalse (by simp)
  | .remainingItems .., .noMatchingVariant .. => isFalse (by simp)
  | .noMatchingChild .., .other _ => isFalse (by simp)
  | .noMatchingChild .., .remainingItems .. => isFalse (by simp)
  | .noMatchingChild .., .noMatchingVariant .. => isFalse (by simp)
  | .noMatchingVariant .., .other _ => isFalse (by simp)
  | .noMatchingVariant .., .remainingItems .. => isFalse (by simp)
  | .noMatchingVariant .., .noMatchingChild .. => isFalse (by simp)

def decEqAll : (as bs : List ParseError) → Decidable (as = bs)
  | [], [] => isTrue rfl
  | [], _ :: _ => isFalse (by simp)
  | _ :: _, [] => isFalse (by simp)
  | a :: as, b :: bs =>
    match decEq a b, decEqAll as bs with
    | isTrue h, isTrue hs => isTrue (by rw [h, hs])
    | isFalse h, _ => isFalse (by simp [h])
    | _, isFalse h => isFalse (by simp [h])

def decEqSlot : (a b : Slot ParseError) → Decidable (a = b)
  | ⟨element, errors⟩, ⟨element', errors'⟩ =>
    if h : element = element' then
      match decEqAll errors errors' with
      | isTrue ht => isTrue (by rw [h, ht])
      | isFalse ht => isFalse fun he => by injection he; contradiction
    else isFalse fun he => by injection he; contradiction

def decEqSlots : (as bs : List (Slot ParseError)) → Decidable (as = bs)
  | [], [] => isTrue rfl
  | [], _ :: _ => isFalse (by simp)
  | _ :: _, [] => isFalse (by simp)
  | a :: as, b :: bs =>
    match decEqSlot a b, decEqSlots as bs with
    | isTrue h, isTrue hs => isTrue (by rw [h, hs])
    | isFalse h, _ => isFalse (by simp [h])
    | _, isFalse h => isFalse (by simp [h])

def decEqBlame : (a b : Blame ParseError) → Decidable (a = b)
  | ⟨child, error⟩, ⟨child', error'⟩ =>
    if h : child = child' then
      match decEq error error' with
      | isTrue ht => isTrue (by rw [h, ht])
      | isFalse ht => isFalse fun he => by injection he; contradiction
    else isFalse fun he => by injection he; contradiction

def decEqBlames : (as bs : List (Blame ParseError)) → Decidable (as = bs)
  | [], [] => isTrue rfl
  | [], _ :: _ => isFalse (by simp)
  | _ :: _, [] => isFalse (by simp)
  | a :: as, b :: bs =>
    match decEqBlame a b, decEqBlames as bs with
    | isTrue h, isTrue hs => isTrue (by rw [h, hs])
    | isFalse h, _ => isFalse (by simp [h])
    | _, isFalse h => isFalse (by simp [h])

end

instance : DecidableEq ParseError := decEq

end ParseError

end ElementGrammar
