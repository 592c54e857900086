import ElementGrammar.Rule.Attempt

/-!
# Scopes

A scope is what remains of an element while a rule runs on it: attributes,
children and a text.  Rules take items out of it.  A child on which an attempt
failed stays, with the error of that attempt added to its own.

* `Scope.takeAttr`, `Scope.dropAttrsFrom`, `Scope.takeText` and
  `Scope.dropChildrenNamed` take items out;
* `Scope.isDrained` asks whether anything is left, and `Scope.remainder` names
  it;
* `Scope.tryChildren` tries a rule on the children, and `Scope.tryVariants`
  tries rules as alternatives.

The last two are given the rules as functions, so that they can be used for any
kind of rule.
-/

namespace ElementGrammar

/-- What remains of an element. -/
structure Scope where
  element : Element
  attrs : Attributes
  children : List (Slot ParseError)
  text : Option String
  deriving DecidableEq

/-- How a rule ended: its value or error, what it left of the scope, and the
attempts that it made. -/
structure Run (α : Type) where
  outcome : Except ParseError α
  scope : Scope
  attempts : List Attempt

namespace Run

variable {α β : Type}

def failure (r : Run α) : Option ParseError :=
  match r.outcome with
  | .ok _ => none
  | .error e => some e

/-- The run with attempts that were made before it. -/
def after (r : Run α) (earlier : List Attempt) : Run α :=
  { r with attempts := earlier ++ r.attempts }

/-- Goes on from a run that has a value, on the scope that it left. -/
def andThen (r : Run β) (next : β → Scope → Run α) : Run α :=
  match r.outcome with
  | .ok value => (next value r.scope).after r.attempts
  | .error e => ⟨.error e, r.scope, r.attempts⟩

end Run

/-- A child with the error of one more attempt. -/
def Slot.withError (slot : Slot ParseError) (e : ParseError) : Slot ParseError :=
  { slot with errors := slot.errors ++ [e] }

namespace Scope

variable {α : Type}

def ofElement (e : Element) : Scope :=
  ⟨e, e.attrs, e.children.map (⟨·, []⟩), e.text⟩

/-! ## Taking items out -/

def takeAttr (s : Scope) (key : String) : Option String × Scope :=
  match s.attrs.named? key with
  | none => (none, s)
  | some a => (some a.value, { s with attrs := s.attrs.eraseP (·.name == key) })

/-- Takes out all attributes whose name starts with a text. -/
def dropAttrsFrom (s : Scope) (start : String) : Scope :=
  { s with attrs := s.attrs.filter fun a => !start.toList.isPrefixOf a.name.toList }

def takeText (s : Scope) : Option String × Scope :=
  (s.text, { s with text := none })

def dropChildrenNamed (s : Scope) (name : String) : Scope :=
  { s with children := s.children.filter (·.element.name != name) }

/-! ## What is left -/

def isDrained (s : Scope) : Bool :=
  s.attrs.isEmpty && s.children.isEmpty && s.text.isNone

/-- The error that names everything that is left. -/
def remainder (s : Scope) : ParseError :=
  .remainingItems s.element s.attrs s.children s.text

def ensureDrained (s : Scope) : Except ParseError Unit :=
  if s.isDrained then .ok () else .error s.remainder

/-- The last error of each child that has one. -/
def lastErrors (s : Scope) : List (Blame ParseError) :=
  s.children.filterMap fun slot => slot.errors.getLast?.map (⟨slot.element, ·⟩)

/-- The error of a child that was asked for and is not there. -/
def missingChild (s : Scope) : ParseError :=
  .noMatchingChild s.element s.lastErrors

/-! ## Trying rules -/

/-- What trying a rule on children gives: the values of those that matched, the
other children, and the attempts. -/
structure Scan (α : Type) where
  values : List α
  kept : List (Slot ParseError)
  attempts : List Attempt

/-- Tries a rule on children from the first on, until `quota` of them have
matched. -/
def scan (tracing : Tracing) (parent : Element) (rule : Element → Run α) :
    (quota : Nat) → List (Slot ParseError) → Scan α
  | 0, slots => ⟨[], slots, []⟩
  | _ + 1, [] => ⟨[], [], []⟩
  | quota + 1, slot :: slots =>
    let run := rule slot.element
    let made := run.attempts ++
      tracing.record (.child parent slot.element run.failure)
    match run.outcome with
    | .ok value =>
      let rest := scan tracing parent rule quota slots
      ⟨value :: rest.values, rest.kept, made ++ rest.attempts⟩
    | .error e =>
      let rest := scan tracing parent rule (quota + 1) slots
      ⟨rest.values, slot.withError e :: rest.kept, made ++ rest.attempts⟩

/-- Takes out the first children that match a rule, `quota` of them at most. -/
def tryChildren (s : Scope) (tracing : Tracing) (quota : Nat) (rule : Element → Run α) :
    Run (List α) :=
  let found := scan tracing s.element rule quota s.children
  ⟨.ok found.values, { s with children := found.kept }, found.attempts⟩

/-- Tries rules as alternatives.  Each one starts from the scope itself; the
first to match decides the value and the scope, and where none does the scope
stays as it is.  `tried` are the errors of the alternatives before these. -/
def tryVariants (s : Scope) (tracing : Tracing) (tried : List ParseError) :
    List (Scope → Run α) → Run α
  | [] => ⟨.error (.noMatchingVariant s.element tried), s, []⟩
  | rule :: rules =>
    let run := rule s
    let made := run.attempts ++
      tracing.record (.variant s.element tried.length run.failure)
    match run.outcome with
    | .ok value => ⟨.ok value, run.scope, made⟩
    | .error e => (tryVariants s tracing (tried ++ [e]) rules).after made

end Scope

/-- The run of a rule that has to take everything: one that leaves something
fails. -/
def Run.drained {α : Type} (r : Run α) : Run α :=
  match r.outcome with
  | .error _ => r
  | .ok _ =>
    match r.scope.ensureDrained with
    | .ok _ => r
    | .error e => { r with outcome := .error e }

end ElementGrammar
