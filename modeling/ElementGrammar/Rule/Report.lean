import ElementGrammar.Rule.Error
import ElementGrammar.Tree.Dump

/-!
# Reports

A report tells an error and every error inside it as lines.  Each error starts
with a headline that counts what follows, then comes the element that it is
about, then its parts, numbered from zero.  The report of an error inside
another is indented: by six columns under a remaining child, by four under a
child or alternative that was tried.

`ParseError.lines` is the report and `ParseError.report` is the same as one
text.
-/

namespace ElementGrammar

/-- The lines with a number of spaces in front of each. -/
def indentLines (width : Nat) (lines : List String) : List String :=
  lines.map (String.ofList (List.replicate width ' ') ++ ·)

namespace ParseError

/-- What remains, in a headline: the number of attributes and of children, and
whether there is a text. -/
def remainderCounts (attrs : Attributes) (children : List (Slot ParseError))
    (text : Option String) : List String :=
  (if attrs.isEmpty then [] else [s!"{attrs.length} attrs"]) ++
    (if children.isEmpty then [] else [s!"{children.length} children"]) ++
    (if text.isSome then ["text"] else [])

def attributeLines (attrs : Attributes) : List String :=
  if attrs.isEmpty then [] else ["  Remaining attributes:", "  " ++ attrs.text]

def textLines : Option String → List String
  | none => []
  | some text => ["  Remaining text:", "  " ++ formatText text]

mutual

def lines : ParseError → List String
  | .other message => [message]
  | .remainingItems element attrs children text =>
    ("Remaining items (" ++
        String.intercalate ", " (remainderCounts attrs children text) ++ ")") ::
      element.intro ::
      (attributeLines attrs ++ slotLines 0 children ++ textLines text)
  | .noMatchingChild element tried =>
    s!"No matching child ({tried.length} tried)" :: element.intro :: blameLines 0 tried
  | .noMatchingVariant element tried =>
    s!"No matching variant ({tried.length} tried)" :: element.intro ::
      variantLines 0 tried

/-- The lines of children that remain, numbered from `i`. -/
def slotLines (i : Nat) : List (Slot ParseError) → List String
  | [] => []
  | slot :: rest => oneSlotLines i slot ++ slotLines (i + 1) rest

def oneSlotLines (i : Nat) : Slot ParseError → List String
  | ⟨element, errors⟩ =>
    s!"  Remaining child {i}:" :: ("  " ++ element.intro) :: historyLines 0 errors

/-- The lines of the errors of a child that remains, numbered from `j`. -/
def historyLines (j : Nat) : List ParseError → List String
  | [] => []
  | error :: rest =>
    s!"    Error {j}" :: (indentLines 6 (lines error) ++ historyLines (j + 1) rest)

/-- The lines of children that were tried, numbered from `i`. -/
def blameLines (i : Nat) : List (Blame ParseError) → List String
  | [] => []
  | blame :: rest => oneBlameLines i blame ++ blameLines (i + 1) rest

def oneBlameLines (i : Nat) : Blame ParseError → List String
  | ⟨child, error⟩ =>
    s!"  Child {i}:" :: ("  " ++ child.intro) :: indentLines 4 (lines error)

/-- The lines of alternatives that were tried, numbered from `i`. -/
def variantLines (i : Nat) : List ParseError → List String
  | [] => []
  | error :: rest =>
    s!"  Variant {i}:" :: (indentLines 4 (lines error) ++ variantLines (i + 1) rest)

end

def report (e : ParseError) : String :=
  String.intercalate "\n" e.lines

end ParseError

end ElementGrammar
