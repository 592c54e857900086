import ElementGrammar.Rule.Basic

/-!
# Runs

How the pieces of a run fit together, as later proofs use it.

* `Run.andThen_of_ok` and `Run.andThen_of_error` are the two ways to go on from
  a run;
* `Run.drained_eq_ok_iff` and `Run.drained_eq_error_iff` say when a run that has
  to take everything matches, and which error it gives where it does not;
* `Scope.scan_cons_of_ok` and `Scope.scan_cons_of_error` are what becomes of one
  child on which a rule is tried;
* `Scope.tryVariants_cons_of_ok` and `Scope.tryVariants_cons_of_error` are what
  becomes of one alternative.
-/

namespace ElementGrammar

namespace Run

variable {α β : Type}

@[simp] theorem after_outcome (r : Run α) (earlier : List Attempt) :
    (r.after earlier).outcome = r.outcome :=
  rfl

@[simp] theorem after_scope (r : Run α) (earlier : List Attempt) :
    (r.after earlier).scope = r.scope :=
  rfl

theorem andThen_of_ok {r : Run β} {value : β} (h : r.outcome = .ok value)
    (next : β → Scope → Run α) :
    r.andThen next = (next value r.scope).after r.attempts := by
  rw [andThen, h]

theorem andThen_of_error {r : Run β} {e : ParseError} (h : r.outcome = .error e)
    (next : β → Scope → Run α) : r.andThen next = ⟨.error e, r.scope, r.attempts⟩ := by
  rw [andThen, h]

@[simp] theorem drained_scope (r : Run α) : r.drained.scope = r.scope := by
  unfold drained
  repeat' split
  all_goals rfl

/-- A run that has to take everything matches where it has a value and leaves
nothing. -/
theorem drained_eq_ok_iff {r : Run α} {value : α} :
    r.drained.outcome = .ok value ↔
      r.outcome = .ok value ∧ r.scope.isDrained = true := by
  unfold drained Scope.ensureDrained
  cases hr : r.outcome with
  | error e => simp [hr]
  | ok v => by_cases hd : r.scope.isDrained = true <;> simp [hr, hd]

/-- Where a run that has to take everything fails, it failed before, or the
error names what it left. -/
theorem drained_eq_error_iff {r : Run α} {e : ParseError} :
    r.drained.outcome = .error e ↔
      r.outcome = .error e ∨
        (∃ value, r.outcome = .ok value) ∧ r.scope.isDrained = false ∧
          e = r.scope.remainder := by
  unfold drained Scope.ensureDrained
  cases hr : r.outcome with
  | error e => simp [hr]
  | ok v => by_cases hd : r.scope.isDrained = true <;> simp [hr, hd, eq_comm]

end Run

namespace Scope

variable {α : Type}

/-! ## One child -/

section Scan

variable {tracing : Tracing} {parent : Element} {rule : Element → Run α} {quota : Nat}
variable {slot : Slot ParseError} {slots : List (Slot ParseError)}

/-- What is kept of an attempt on a child. -/
def childAttempts (tracing : Tracing) (parent : Element) (slot : Slot ParseError)
    (run : Run α) : List Attempt :=
  run.attempts ++ tracing.record (.child parent slot.element run.failure)

/-- A child that matches is taken. -/
theorem scan_cons_of_ok {value : α} (h : (rule slot.element).outcome = .ok value) :
    scan tracing parent rule (quota + 1) (slot :: slots) =
      let rest := scan tracing parent rule quota slots
      ⟨value :: rest.values, rest.kept,
        childAttempts tracing parent slot (rule slot.element) ++ rest.attempts⟩ := by
  rw [scan, h]
  rfl

/-- A child that does not match stays, with the error. -/
theorem scan_cons_of_error {e : ParseError} (h : (rule slot.element).outcome = .error e) :
    scan tracing parent rule (quota + 1) (slot :: slots) =
      let rest := scan tracing parent rule (quota + 1) slots
      ⟨rest.values, slot.withError e :: rest.kept,
        childAttempts tracing parent slot (rule slot.element) ++ rest.attempts⟩ := by
  rw [scan, h]
  rfl

end Scan

/-! ## One alternative -/

section Variants

variable {s : Scope} {tracing : Tracing} {tried : List ParseError}
variable {rule : Scope → Run α} {rules : List (Scope → Run α)}

/-- What is kept of an attempt as an alternative. -/
def variantAttempts (s : Scope) (tracing : Tracing) (tried : List ParseError)
    (run : Run α) : List Attempt :=
  run.attempts ++ tracing.record (.variant s.element tried.length run.failure)

/-- An alternative that matches decides the value and the scope. -/
theorem tryVariants_cons_of_ok {value : α} (h : (rule s).outcome = .ok value) :
    s.tryVariants tracing tried (rule :: rules) =
      ⟨.ok value, (rule s).scope, variantAttempts s tracing tried (rule s)⟩ := by
  rw [tryVariants, h]
  rfl

/-- After an alternative that does not match the others are tried on the same
scope. -/
theorem tryVariants_cons_of_error {e : ParseError} (h : (rule s).outcome = .error e) :
    s.tryVariants tracing tried (rule :: rules) =
      (s.tryVariants tracing (tried ++ [e]) rules).after
        (variantAttempts s tracing tried (rule s)) := by
  rw [tryVariants, h]
  rfl

end Variants

end Scope

end ElementGrammar
