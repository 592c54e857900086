/-!
# Attributes

An attribute is a name with a value.  An element holds a list of them, in the
order in which they were written; `Attributes` is that list with the questions
that are asked of it.
-/

namespace ElementGrammar

/-- A name with a value. -/
structure Attribute where
  name : String
  value : String
  deriving DecidableEq, Repr

def Attribute.text (a : Attribute) : String :=
  a.name ++ "=" ++ a.value

/-- Attributes in the order in which they were written. -/
abbrev Attributes := List Attribute

namespace Attributes

/-- The attributes with one more at the end. -/
def push (as : Attributes) (a : Attribute) : Attributes :=
  as ++ [a]

def named? (as : Attributes) (name : String) : Option Attribute :=
  as.find? (·.name == name)

/-- The attributes on one line, with a comma between any two. -/
def text (as : Attributes) : String :=
  String.intercalate "," (as.map Attribute.text)

end Attributes

end ElementGrammar
