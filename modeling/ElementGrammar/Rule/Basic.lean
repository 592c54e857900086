import ElementGrammar.Rule.Scope

/-!
# Rules

A rule is a description of how an element is read: which attributes, children
and text it takes out of a scope, in which order, and what it makes of them.  A
rule is data, so a grammar can be run, and it can also be asked questions.

* `Rule` lists the ways to build a rule, and the monad instance puts rules in
  sequence;
* `Rule.eval` runs a rule on a scope, and `Rule.run` on a whole element, all of
  which it then has to take;
* the combinators under them are rules made of these: single attributes and
  texts, and children that are required, optional or repeated.
-/

namespace ElementGrammar

/-- A rule that gives a value of type `α`. -/
inductive Rule : Type → Type 1 where
  /-- Gives a value and takes nothing. -/
  | pure {α : Type} (value : α) : Rule α
  /-- Runs a rule and then the one for its value, where it has one. -/
  | bind {α β : Type} (rule : Rule β) (next : β → Rule α) : Rule α
  /-- Fails for a reason of the grammar. -/
  | fail {α : Type} (message : String) : Rule α
  | element : Rule Element
  | scope : Rule Scope
  /-- Takes the first attribute of a name. -/
  | takeAttr (key : String) : Rule (Option String)
  /-- Takes all attributes whose name starts with a text. -/
  | dropAttrsFrom (start : String) : Rule Unit
  | takeText : Rule (Option String)
  | dropChildrenNamed (name : String) : Rule Unit
  | ensureDrained : Rule Unit
  /-- Fails with the last error of each child that is left. -/
  | missingChild {α : Type} : Rule α
  /-- Takes the first children that match a rule, `quota` of them at most.  The
  rule has a scope of its own for each child, and has to take all of it. -/
  | childrenAtMost {α : Type} (quota : Nat) (rule : Rule α) : Rule (List α)
  /-- The first of several rules to match, each on a scope of its own. -/
  | choice {α : Type} (count : Nat) (rules : Fin count → Rule α) : Rule α
  /-- Runs a rule and gives its value or its error.  What it took stays taken. -/
  | attempt {α : Type} (rule : Rule α) : Rule (Except ParseError α)

namespace Rule

instance : Monad Rule where
  pure := .pure
  bind := .bind

variable {α ε : Type}

/-! ## Running rules -/

def eval (tracing : Tracing) {α : Type} : Rule α → Scope → Run α
  | .pure value, s => ⟨.ok value, s, []⟩
  | .bind rule next, s => (eval tracing rule s).andThen fun value => eval tracing (next value)
  | .fail message, s => ⟨.error (.other message), s, []⟩
  | .element, s => ⟨.ok s.element, s, []⟩
  | .scope, s => ⟨.ok s, s, []⟩
  | .takeAttr key, s => ⟨.ok (s.takeAttr key).1, (s.takeAttr key).2, []⟩
  | .dropAttrsFrom start, s => ⟨.ok (), s.dropAttrsFrom start, []⟩
  | .takeText, s => ⟨.ok s.takeText.1, s.takeText.2, []⟩
  | .dropChildrenNamed name, s => ⟨.ok (), s.dropChildrenNamed name, []⟩
  | .ensureDrained, s => ⟨s.ensureDrained, s, []⟩
  | .missingChild, s => ⟨.error s.missingChild, s, []⟩
  | .childrenAtMost quota rule, s =>
    s.tryChildren tracing quota fun child =>
      (eval tracing rule (Scope.ofElement child)).drained
  | .choice _ rules, s =>
    s.tryVariants tracing [] (List.ofFn fun i => eval tracing (rules i))
  | .attempt rule, s =>
    let run := eval tracing rule s
    ⟨.ok run.outcome, run.scope, run.attempts⟩

/-- Runs a rule on an element, all of which it has to take. -/
def run (tracing : Tracing) (rule : Rule α) (e : Element) : Run α :=
  (rule.eval tracing (Scope.ofElement e)).drained

/-- What a rule says of an element. -/
def parse (rule : Rule α) (e : Element) : Except ParseError α :=
  (rule.run .silent e).outcome

/-! ## Names, attributes and texts -/

def matchName (name : String) : Rule Unit := do
  let e ← element
  if e.name = name then return ()
  else fail s!"Element name is not {name}"

/-- Takes the first attribute of a name, which has to be there. -/
def attr (key : String) : Rule String := do
  match ← takeAttr key with
  | some value => return value
  | none => fail s!"Attribute {key} not found"

/-- Takes the first attribute of a name, which has to have a value. -/
def attrEq (key expected : String) : Rule Unit := do
  let value ← attr key
  if value = expected then return ()
  else fail s!"Attribute {key} has value {value}, not {expected}"

/-! A value is read by any function on texts whose errors can be shown. -/

section Reading

variable [ToString ε]

def invalidValue (key value : String) (e : ε) : String :=
  s!"Attribute {key} has invalid value {value}: {e}"

def readValue (read : String → Except ε α) (key value : String) : Rule α :=
  match read value with
  | .ok a => return a
  | .error e => fail (invalidValue key value e)

/-- Takes the first attribute of a name, which has to be there, and reads its
value. -/
def attrRead (read : String → Except ε α) (key : String) : Rule α := do
  readValue read key (← attr key)

/-- Takes the first attribute of a name and reads its value. -/
def attrReadOpt (read : String → Except ε α) (key : String) : Rule (Option α) := do
  match ← takeAttr key with
  | none => return none
  | some value => return some (← readValue read key value)

end Reading

def dropAttr (key : String) : Rule Unit := do
  let _ ← takeAttr key

/-- Takes the text, which is empty where there is none. -/
def text : Rule String := do
  return (← takeText).getD ""

/-- Takes the text, which has to be blank. -/
def blankText : Rule Unit := do
  if Text.isBlankText (← text) then return ()
  else fail "Text is not blank"

/-! ## Children -/

/-- The quota of a rule that takes every child: the greatest number of 64 bits,
which no element has as many children as. -/
def unlimited : Nat := 0xFFFFFFFFFFFFFFFF

def childOpt (rule : Rule α) : Rule (Option α) := do
  return (← childrenAtMost 1 rule).head?

/-- Takes the first child that matches a rule, which has to be there. -/
def child (rule : Rule α) : Rule α := do
  match ← childOpt rule with
  | some value => return value
  | none => missingChild

def childrenOpt (rule : Rule α) : Rule (List α) :=
  childrenAtMost unlimited rule

/-- Takes every child that matches a rule, one at least. -/
def children (rule : Rule α) : Rule (List α) := do
  let values ← childrenOpt rule
  if values.isEmpty then missingChild else return values

/-! ## Alternatives -/

def oneOf (rules : List (Rule α)) : Rule α :=
  choice rules.length rules.get

/-! ## Running sequences and alternatives -/

@[simp] theorem eval_pure (tracing : Tracing) (value : α) (s : Scope) :
    (Pure.pure value : Rule α).eval tracing s = ⟨.ok value, s, []⟩ :=
  rfl

@[simp] theorem eval_bind {β : Type} (tracing : Tracing) (rule : Rule β)
    (next : β → Rule α) (s : Scope) :
    (rule >>= next).eval tracing s =
      (rule.eval tracing s).andThen fun value => (next value).eval tracing :=
  rfl

@[simp] theorem eval_oneOf (tracing : Tracing) (rules : List (Rule α)) (s : Scope) :
    (oneOf rules).eval tracing s =
      s.tryVariants tracing [] (rules.map fun rule => rule.eval tracing) := by
  show s.tryVariants tracing [] (List.ofFn fun i => (rules.get i).eval tracing) = _
  congr 1
  apply List.ext_getElem <;> simp

end Rule

end ElementGrammar
