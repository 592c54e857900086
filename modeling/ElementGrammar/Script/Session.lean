import ElementGrammar.Script.Step

/-!
# Sessions

A session is a scope on which steps are run one by one.  A step that fails does
not end it: the scope stays as the step left it.  Scopes can be kept under a name,
taken up again, and compared with the present one.
-/

namespace ElementGrammar

structure Session where
  scope : Scope
  /-- The scopes that are kept, with their names. -/
  saved : List (String × Scope)

namespace Session

inductive Command where
  | step (step : Step)
  | save (name : String)
  /-- Takes up the scope of a name. -/
  | restore (name : String)
  /-- Asks whether the scope of a name equals the present one. -/
  | same (name : String)

/-- The answer to a command: its value or error, and the attempts that it made. -/
structure Reply where
  outcome : Except ParseError Value
  attempts : List Attempt

/-- A session on the whole of an element. -/
def ofElement (e : Element) : Session :=
  ⟨Scope.ofElement e, []⟩

/-- The step of a script as a rule of its own. -/
def stepRule (library : Library) (step : Step) : Rule Value := do
  let e ← Rule.element
  Script.ofStep (Script.callWithin library (Script.callLevels library e)) step

def perform (library : Library) (tracing : Tracing) (s : Session) : Command → Reply × Session
  | .step step =>
    let run := (stepRule library step).eval tracing s.scope
    (⟨run.outcome, run.attempts⟩, { s with scope := run.scope })
  | .save name => (⟨.ok .nothing, []⟩, { s with saved := (name, s.scope) :: s.saved })
  | .restore name =>
    (⟨.ok .nothing, []⟩, { s with scope := (s.saved.lookup name).getD s.scope })
  | .same name =>
    (⟨.ok (.scalar (.boolean (s.saved.lookup name == some s.scope))), []⟩, s)

/-- Carries out commands in order.  Each reply comes with the scope after it. -/
def performAll (library : Library) (tracing : Tracing) :
    Session → List Command → List (Reply × Scope)
  | _, [] => []
  | s, command :: commands =>
    let (reply, next) := s.perform library tracing command
    (reply, next.scope) :: performAll library tracing next commands

end Session

end ElementGrammar
