import ElementGrammar.Text.Blank
import ElementGrammar.Tree.Element

/-!
# Dump of a tree

A dump has a line for each element and a line for each text.  The line of an
element starts with a dash and the line of a text with a hash sign; what
belongs to an element stands two columns deeper.

* `Element.intro` names an element with its attributes;
* `formatText` is a text cut to one line;
* `Element.lines` is the dump.
-/

namespace ElementGrammar

/-- The number of characters that a text is cut to. -/
def textLimit : Nat := 70

/-- A character of a text on one line. -/
def textChar (c : Char) : List Char :=
  if c = '\n' then ['\\', 'n'] else [c]

/-- The first characters of a trimmed text, on one line. -/
def formatText (s : String) : String :=
  String.ofList (((Text.trimChars s.toList).take textLimit).flatMap textChar)

namespace Element

/-- The name of an element, with its attributes if there are any. -/
def intro (e : Element) : String :=
  if e.attrs.isEmpty then e.name else e.name ++ " @ " ++ e.attrs.text

/-- A line inside the element it belongs to. -/
def indented (line : String) : String :=
  "  " ++ line

/-- The line of an element. -/
def heading (e : Element) : String :=
  "- " ++ e.intro

/-- The line of a text. -/
def textLine (text : String) : String :=
  "  # " ++ formatText text

mutual

def lines : Element → List String
  | ⟨name, attrs, children, text⟩ =>
    heading ⟨name, attrs, children, text⟩ ::
      match text with
      | some text => [textLine text]
      | none => (linesOfAll children).map indented

def linesOfAll : List Element → List String
  | [] => []
  | e :: es => lines e ++ linesOfAll es

end

def dump (e : Element) : String :=
  String.intercalate "\n" e.lines

end Element

end ElementGrammar
