import ElementGrammar.Text.Quoted

/-!
# Structured values as text

A structured value is an atom, a list, a tuple with a name, or a record with a
name.  `Structured.inline` writes it on one line; `Structured.lines` gives
each part a line of its own, four columns deeper than the value it belongs to,
with a comma after it.  An empty list stays on one line in both.
-/

namespace ElementGrammar.Text

/-- A value made of named and unnamed parts. -/
inductive Structured where
  | atom (text : String)
  | list (items : List Structured)
  | tuple (name : String) (items : List Structured)
  | record (name : String) (fields : List (String × Structured))

namespace Structured

def quoted (s : String) : Structured := .atom (quoteText s)

def number (n : Nat) : Structured := .atom (toString n)

def optional : Option Structured → Structured
  | none => .atom "None"
  | some v => .tuple "Some" [v]

mutual

/-- The value on one line. -/
def inline : Structured → String
  | .atom text => text
  | .list items => "[" ++ String.intercalate ", " (inlineAll items) ++ "]"
  | .tuple name items =>
    name ++ "(" ++ String.intercalate ", " (inlineAll items) ++ ")"
  | .record name fields =>
    name ++ " \x7b " ++ String.intercalate ", " (inlineFields fields) ++ " \x7d"

def inlineAll : List Structured → List String
  | [] => []
  | v :: vs => inline v :: inlineAll vs

def inlineFields : List (String × Structured) → List String
  | [] => []
  | (name, v) :: rest => (name ++ ": " ++ inline v) :: inlineFields rest

end

/-- Puts a text in front of the first line. -/
def leadWith (text : String) : List String → List String
  | [] => []
  | line :: rest => (text ++ line) :: rest

def withComma : List String → List String
  | [] => []
  | [line] => [line ++ ","]
  | line :: rest => line :: withComma rest

/-- The lines of a part inside the value it belongs to. -/
def nested (lines : List String) : List String :=
  (withComma lines).map ("    " ++ ·)

mutual

/-- The value with a line for each part. -/
def lines : Structured → List String
  | .atom text => [text]
  | .list [] => ["[]"]
  | .list (v :: vs) => "[" :: nested (lines v) ++ partLines vs ++ ["]"]
  | .tuple name items => (name ++ "(") :: partLines items ++ [")"]
  | .record name fields => (name ++ " \x7b") :: fieldLines fields ++ ["\x7d"]

def partLines : List Structured → List String
  | [] => []
  | v :: vs => nested (lines v) ++ partLines vs

def fieldLines : List (String × Structured) → List String
  | [] => []
  | (name, v) :: rest => nested (leadWith (name ++ ": ") (lines v)) ++ fieldLines rest

end

/-- The value with a line for each part, as one text. -/
def spread (v : Structured) : String :=
  String.intercalate "\n" v.lines

end Structured

end ElementGrammar.Text
