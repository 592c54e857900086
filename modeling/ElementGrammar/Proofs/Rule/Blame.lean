import ElementGrammar.Proofs.Rule.Explanation

/-!
# Whom a run blames

A child on which a rule was tried and that stays has the error of the rule on that child
alone as its last one.

* `Scope.scan_kept_blamed` is this for a single scan that could have taken every child.
* `Rule.Leaves` is a condition on what a rule leaves where it has a value.  It is enough
  that the last step of the rule leaves it (`Rule.Leaves.bind`), and a rule on all children
  leaves blamed ones (`Rule.leaves_childrenOpt`).
-/

namespace ElementGrammar

variable {α β : Type}

/-- The last error of a child is the one of a rule on that child alone. -/
def Slot.BlamedBy (slot : Slot ParseError) (rule : Element → Run α) : Prop :=
  ∃ error, (rule slot.element).outcome = .error error ∧ slot.errors.getLast? = some error

/-- Where no quota stops the scan, each child that stays is blamed. -/
theorem Scope.scan_kept_blamed (tracing : Tracing) (parent : Element) {rule : Element → Run α}
    {quota : Nat} {slots : List (Slot ParseError)} (h : slots.length ≤ quota) :
    ∀ slot ∈ (scan tracing parent rule quota slots).kept, slot.BlamedBy rule := by
  induction slots generalizing quota with
  | nil => cases quota <;> exact fun _ hslot => absurd hslot List.not_mem_nil
  | cons slot slots ih =>
    cases quota with
    | zero => exact absurd h (Nat.not_succ_le_zero _)
    | succ quota =>
      have hrest := Nat.le_of_succ_le_succ h
      cases hr : (rule slot.element).outcome with
      | ok value =>
        rw [scan_cons_of_ok hr]
        exact ih hrest
      | error error =>
        rw [scan_cons_of_error hr]
        refine List.forall_mem_cons.mpr ⟨⟨error, hr, ?_⟩, ih (Nat.le_succ_of_le hrest)⟩
        exact List.getLast?_concat

/-- Children of a scope are not more than those of its element. -/
theorem Scope.Sound.length_children_le {s : Scope} (hs : s.Sound) :
    s.children.length ≤ s.element.children.length := by
  rw [← List.length_map (·.element)]
  exact hs.children_sublist.length_le

namespace Rule

/-- Where the rule has a value on what is left of an element, it leaves a scope as `Q`
says. -/
def Leaves (rule : Rule α) (tracing : Tracing) (e : Element) (Q : Scope → Prop) : Prop :=
  ∀ (s : Scope), s.Sound → s.element = e → ∀ value, (rule.eval tracing s).outcome = .ok value →
    Q (rule.eval tracing s).scope

variable {tracing : Tracing} {e : Element} {Q : Scope → Prop}

/-- What the last step leaves is left. -/
theorem Leaves.bind {rule : Rule β} {next : β → Rule α}
    (h : ∀ value, (next value).Leaves tracing e Q) : (rule >>= next).Leaves tracing e Q := by
  intro s hs he value hvalue
  rw [eval_bind] at hvalue ⊢
  have hrun := rule.eval_explained tracing hs
  cases ho : (rule.eval tracing s).outcome with
  | error error =>
    rw [Run.andThen_of_error ho] at hvalue
    cases hvalue
  | ok first =>
    rw [Run.andThen_of_ok ho] at hvalue ⊢
    exact h first _ (hrun.shrinks.sound hs) (hrun.shrinks.element.trans he) value hvalue

/-- What is left before a value is given is left after it. -/
theorem Leaves.bind_pure {rule : Rule β} {f : β → α} (h : rule.Leaves tracing e Q) :
    (rule >>= fun value => pure (f value)).Leaves tracing e Q := by
  intro s hs he value hvalue
  rw [eval_bind] at hvalue ⊢
  cases ho : (rule.eval tracing s).outcome with
  | error error =>
    rw [Run.andThen_of_error ho] at hvalue
    cases hvalue
  | ok first =>
    rw [Run.andThen_of_ok ho]
    exact h s hs he first ho

/-- A rule on all children leaves those on which it fails, each blamed for it. -/
theorem leaves_childrenOpt {rule : Rule α} (h : e.children.length ≤ unlimited) :
    (childrenOpt rule).Leaves tracing e fun s =>
      ∀ slot ∈ s.children, slot.BlamedBy (rule.run tracing) := by
  rintro s hs rfl value -
  exact Scope.scan_kept_blamed tracing s.element (Nat.le_trans hs.length_children_le h)

end Rule

end ElementGrammar
