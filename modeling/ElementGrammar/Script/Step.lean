import ElementGrammar.Xsd.Entry

/-!
# Rules as scripts

A script is a list of steps, each of which takes something from the scope or
asks something of it.  Scripts stand for rules that are not known beforehand: a
script is read from somewhere, and `Script.rule` is the rule that it means, whose
value is the list of the values of the steps.

A script may call others by name, also itself.  Calls are followed to a number of
levels that no rule can use up which takes an item between two calls of one name.
-/

namespace ElementGrammar

inductive Value where
  | nothing
  | text (s : String)
  | scalar (s : Text.Scalar)
  | list (values : List Value)
  /-- The value of the alternative after `index` others that failed, of `count`
  in all. -/
  | variant (index count : Nat) (value : Value)
  | outcome (result : Except ParseError Value)
  | scope (s : Scope)
  | declared (d : Xsd.Declared)

inductive Step where
  | matchName (name : String)
  | attr (key : String)
  | attrOpt (key : String)
  | attrEq (key expected : String)
  | attrRead (kind : Text.ScalarKind) (key : String)
  | attrReadOpt (kind : Text.ScalarKind) (key : String)
  | dropAttr (key : String)
  | dropAttrsFrom (start : String)
  | dropChildrenNamed (name : String)
  | text
  | blankText
  | ensureDrained
  | name
  | intro
  | scope
  | fail (message : String)
  | child (script : List Step)
  | childOpt (script : List Step)
  | children (script : List Step)
  | childrenOpt (script : List Step)
  | childrenAtMost (quota : Nat) (script : List Step)
  | oneOf (scripts : List (List Step))
  /-- Runs a script on the same scope and gives its value or its error. -/
  | attempt (script : List Step)
  /-- Runs the script of a name on the same scope. -/
  | call (name : String)
  /-- Runs a rule of the grammar of schemas on the same scope. -/
  | grammar (rule : Xsd.RuleName)
  deriving Inhabited

abbrev Script := List Step

abbrev Library := List (String × Script)

namespace Script

def optional {α : Type} (f : α → Value) : Option α → Value
  | none => .nothing
  | some a => f a

/-- A rule that is run for what it takes. -/
def forget (rule : Rule Unit) : Rule Value := do
  rule
  return .nothing

/-- A rule whose values are put in a list. -/
def listed (rule : Rule (List Value)) : Rule Value := do
  return .list (← rule)

/-- The alternatives with their numbers. -/
def numbered (rules : List (Rule Value)) : List (Rule Value) :=
  rules.zipIdx.map fun (rule, i) => do return .variant i rules.length (← rule)

mutual

/-- The rule that a step means, where `call` gives the rules of names. -/
def ofStep (call : String → Rule Value) : Step → Rule Value
  | .matchName name => forget (Rule.matchName name)
  | .attr key => do return .text (← Rule.attr key)
  | .attrOpt key => do return optional .text (← Rule.takeAttr key)
  | .attrEq key expected => forget (Rule.attrEq key expected)
  | .attrRead kind key => do return .scalar (← Rule.attrRead kind.read key)
  | .attrReadOpt kind key => do return optional .scalar (← Rule.attrReadOpt kind.read key)
  | .dropAttr key => forget (Rule.dropAttr key)
  | .dropAttrsFrom start => forget (Rule.dropAttrsFrom start)
  | .dropChildrenNamed name => forget (Rule.dropChildrenNamed name)
  | .text => do return .text (← Rule.text)
  | .blankText => forget Rule.blankText
  | .ensureDrained => forget Rule.ensureDrained
  | .name => do return .text (← Rule.element).name
  | .intro => do return .text (← Rule.element).intro
  | .scope => do return .scope (← Rule.scope)
  | .fail message => Rule.fail message
  | .child script => Rule.child (listed (ofSteps call script))
  | .childOpt script => do return optional id (← Rule.childOpt (listed (ofSteps call script)))
  | .children script => do return .list (← Rule.children (listed (ofSteps call script)))
  | .childrenOpt script => do return .list (← Rule.childrenOpt (listed (ofSteps call script)))
  | .childrenAtMost quota script => do
    return .list (← Rule.childrenAtMost quota (listed (ofSteps call script)))
  | .oneOf scripts => Rule.oneOf (numbered (ofScripts call scripts))
  | .attempt script => do return .outcome (← Rule.attempt (listed (ofSteps call script)))
  | .call name => do
    let _ ← Rule.element
    call name
  | .grammar rule => do return .declared (← rule.rule .declared)

/-- The rule that steps mean, one after the other. -/
def ofSteps (call : String → Rule Value) : List Step → Rule (List Value)
  | [] => return []
  | step :: steps => do
    let value ← ofStep call step
    let values ← ofSteps call steps
    return value :: values

def ofScripts (call : String → Rule Value) : List (List Step) → List (Rule Value)
  | [] => []
  | script :: scripts => listed (ofSteps call script) :: ofScripts call scripts

end

/-- The rule of a name, with calls to a number of levels. -/
def callWithin (library : Library) : (levels : Nat) → String → Rule Value
  | 0, _ => Rule.fail "Rules call each other too deeply"
  | levels + 1, name =>
    match library.lookup name with
    | none => Rule.fail s!"There is no rule {name}"
    | some script => listed (ofSteps (callWithin library levels) script)

/-- More levels than calls can have that take an item of the element before a name
comes up again. -/
def callLevels (library : Library) (e : Element) : Nat :=
  (e.size + 1) * (library.length + 1)

def rule (library : Library) (script : Script) : Rule Value := do
  let e ← Rule.element
  listed (ofSteps (callWithin library (callLevels library e)) script)

end Script

end ElementGrammar
