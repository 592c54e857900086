import ElementGrammar.Rule.Report

/-!
# Attempts

While a rule runs it tries other rules: on children of its element, and as
alternatives.  An attempt is the record of one such trial and of how it ended.
The attempts of a run are listed in the order in which they ended, so those made
inside an attempt come before it; none is taken back when the context that it
was made in is dropped.

`Tracing` says whether a run keeps its attempts, and `Attempt.block` is the text
of one.
-/

namespace ElementGrammar

/-- A trial of a rule, with its error where it failed. -/
inductive Attempt where
  /-- On a child of an element.  It failed too where the rule matched and left
  something of the child. -/
  | child (parent tried : Element) (failure : Option ParseError)
  /-- As the alternative after `index` others that failed. -/
  | variant (element : Element) (index : Nat) (failure : Option ParseError)
  deriving DecidableEq

namespace Attempt

def failure : Attempt → Option ParseError
  | .child _ _ failure => failure
  | .variant _ _ failure => failure

/-- The lines that say what was tried. -/
def subject : Attempt → List String
  | .child parent tried _ =>
    ["[Scope::children_at_most] parent: " ++ parent.intro, "| ==> child: " ++ tried.intro]
  | .variant element index _ =>
    ["[Scope::one_of] element: " ++ element.intro, s!"| ==> variant: {index}"]

/-- The lines that say how it ended. -/
def ending (a : Attempt) : List String :=
  match a.failure with
  | none => ["| ==> matched."]
  | some error => "| ==> !!! did not match:" :: error.lines.map ("|  |  " ++ ·)

/-- The line under every attempt. -/
def footnote : String :=
  "= note: this trace was output as a debugging aid "
    ++ "because `cfg(feature = \"parser-trace-stderr\")`."

/-- The lines of an attempt, the last one empty. -/
def blockLines (a : Attempt) : List String :=
  a.subject ++ ["|"] ++ a.ending ++ [footnote, ""]

def block (a : Attempt) : String :=
  String.join (a.blockLines.map (· ++ "\n"))

def trace (attempts : List Attempt) : String :=
  String.join (attempts.map block)

end Attempt

/-- Whether a run keeps its attempts. -/
inductive Tracing where
  | silent
  | full
  deriving DecidableEq

/-- What a run keeps of an attempt. -/
def Tracing.record : Tracing → Attempt → List Attempt
  | .silent, _ => []
  | .full, a => [a]

end ElementGrammar
