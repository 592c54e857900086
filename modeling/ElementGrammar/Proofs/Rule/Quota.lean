import Mathlib.Data.List.ReduceOption
import ElementGrammar.Proofs.Rule.Run

/-!
# Children up to a quota

A rule on children is tried on one child after the other until as many have matched as it
may take.  What becomes of a child can be said without the scan: it depends on what the rule
says of that child alone, and on how many of the children before it match.

* `Slot.matchedBefore` counts the children before a place that match.
* `Slot.settled` is what becomes of the child at a place.
* `Slot.scan_induction` is induction along a scan, in which a child that matches uses up one of
  the quota.  With it `Scope.scan_settles` says that a scan gives the values of the first
  children that match and settles every child, and
  `Slot.length_firstValues_add_length_settle` that it loses none.
* `Rule.verdict` is what a rule says of a child on its own.  `Rule.outcome_childrenAtMost` and
  `Rule.scope_childrenAtMost` put a scan in terms of it, and later proofs use no other.

`Rule.eval_childrenAtMost_settles` puts these together for a rule on the children of a scope.
-/

namespace ElementGrammar

variable {α : Type}

/-! ## What becomes of a child -/

namespace Slot

-- `verdict` is what a rule says of an element on its own.
variable (verdict : Element → Except ParseError α) (quota : Nat)

/-- How many of the children before a place match. -/
def matchedBefore (slots : List (Slot ParseError)) (place : Nat) : Nat :=
  (slots.take place).countP fun slot => (verdict slot.element).isOk

/-- What becomes of the child at a place.  Where the quota is not used up before it, the child
is taken if it matches, and otherwise stays with the error of the attempt.  After that it
stays as it is. -/
def settled (slots : List (Slot ParseError)) (place : Nat) (slot : Slot ParseError) :
    Option (Slot ParseError) :=
  if matchedBefore verdict slots place < quota then
    match verdict slot.element with
    | .ok _ => none
    | .error e => some (slot.withError e)
  else some slot

/-- The values of the first children that match. -/
def firstValues (slots : List (Slot ParseError)) : List α :=
  (slots.filterMap fun slot => (verdict slot.element).toOption).take quota

/-- The children that stay, in order. -/
def settle (slots : List (Slot ParseError)) : List (Slot ParseError) :=
  (slots.mapIdx (settled verdict quota slots)).reduceOption

variable {verdict quota} {slot : Slot ParseError} {slots : List (Slot ParseError)}

@[simp] theorem matchedBefore_zero : matchedBefore verdict slots 0 = 0 :=
  rfl

theorem matchedBefore_cons_of_ok {value : α} (h : verdict slot.element = .ok value)
    (place : Nat) :
    matchedBefore verdict (slot :: slots) (place + 1) =
      matchedBefore verdict slots place + 1 := by
  have hmatch : (verdict slot.element).isOk = true := by
    rw [h]
    rfl
  simp only [matchedBefore, List.take_succ_cons, List.countP_cons, hmatch, if_true]

theorem matchedBefore_cons_of_error {e : ParseError} (h : verdict slot.element = .error e)
    (place : Nat) :
    matchedBefore verdict (slot :: slots) (place + 1) = matchedBefore verdict slots place := by
  have hfail : (verdict slot.element).isOk = false := by
    rw [h]
    rfl
  simp only [matchedBefore, List.take_succ_cons, List.countP_cons, hfail, Bool.false_eq_true,
    if_false, Nat.add_zero]

theorem firstValues_cons_of_ok {value : α} (h : verdict slot.element = .ok value) :
    firstValues verdict (quota + 1) (slot :: slots) =
      value :: firstValues verdict quota slots := by
  simp only [firstValues, List.filterMap_cons, h, Except.toOption, List.take_succ_cons]

theorem firstValues_cons_of_error {e : ParseError} (h : verdict slot.element = .error e) :
    firstValues verdict quota (slot :: slots) = firstValues verdict quota slots := by
  simp only [firstValues, List.filterMap_cons, h, Except.toOption]

/-- Without a quota every child stays as it is. -/
theorem settle_zero : settle verdict 0 slots = slots := by
  have hsettled : settled verdict 0 slots = fun _ slot => some slot := by
    funext place slot
    rw [settled, if_neg (Nat.not_lt_zero _)]
  rw [settle, hsettled]
  clear hsettled
  induction slots with
  | nil => rfl
  | cons slot slots ih => rw [List.mapIdx_cons, List.reduceOption_cons_of_some, ih]

/-- A child that matches is taken, and uses up one of the quota for the children after it. -/
theorem settle_cons_of_ok {value : α} (h : verdict slot.element = .ok value) :
    settle verdict (quota + 1) (slot :: slots) = settle verdict quota slots := by
  have hfirst : settled verdict (quota + 1) (slot :: slots) 0 slot = none := by
    rw [settled, matchedBefore_zero, if_pos (Nat.succ_pos quota), h]
  have hrest : ∀ place, settled verdict (quota + 1) (slot :: slots) (place + 1) =
      settled verdict quota slots place := by
    intro place
    funext other
    simp only [settled, matchedBefore_cons_of_ok h, Nat.add_lt_add_iff_right]
  rw [settle, List.mapIdx_cons, hfirst, List.reduceOption_cons_of_none]
  simp only [hrest]
  rfl

/-- A child that does not match stays with the error of the attempt, and leaves the quota to
the children after it. -/
theorem settle_cons_of_error {e : ParseError} (h : verdict slot.element = .error e) :
    settle verdict (quota + 1) (slot :: slots) =
      slot.withError e :: settle verdict (quota + 1) slots := by
  have hfirst :
      settled verdict (quota + 1) (slot :: slots) 0 slot = some (slot.withError e) := by
    rw [settled, matchedBefore_zero, if_pos (Nat.succ_pos quota), h]
  have hrest : ∀ place, settled verdict (quota + 1) (slot :: slots) (place + 1) =
      settled verdict (quota + 1) slots place := by
    intro place
    funext other
    simp only [settled, matchedBefore_cons_of_error h]
  rw [settle, List.mapIdx_cons, hfirst, List.reduceOption_cons_of_some]
  simp only [hrest]
  rfl

/-- A scan is over with its quota or with its children.  Before that a child that matches uses
up one of the quota, and any other child none. -/
theorem scan_induction (verdict : Element → Except ParseError α)
    {P : Nat → List (Slot ParseError) → Prop} (zero : ∀ slots, P 0 slots)
    (nil : ∀ quota, P (quota + 1) [])
    (ok : ∀ quota slot slots value, verdict slot.element = .ok value → P quota slots →
      P (quota + 1) (slot :: slots))
    (error : ∀ quota slot slots e, verdict slot.element = .error e → P (quota + 1) slots →
      P (quota + 1) (slot :: slots))
    (quota : Nat) (slots : List (Slot ParseError)) : P quota slots := by
  induction slots generalizing quota with
  | nil =>
    cases quota with
    | zero => exact zero []
    | succ quota => exact nil quota
  | cons slot slots ih =>
    cases quota with
    | zero => exact zero (slot :: slots)
    | succ quota =>
      cases h : verdict slot.element with
      | ok value => exact ok quota slot slots value h (ih quota)
      | error e => exact error quota slot slots e h (ih (quota + 1))

/-- A child gives a value or stays. -/
theorem length_firstValues_add_length_settle :
    (firstValues verdict quota slots).length + (settle verdict quota slots).length =
      slots.length := by
  induction quota, slots using scan_induction verdict with
  | zero slots =>
    rw [settle_zero, firstValues, List.take_zero]
    exact Nat.zero_add _
  | nil quota => rfl
  | ok quota slot slots value h ih =>
    rw [firstValues_cons_of_ok h, settle_cons_of_ok h, List.length_cons, List.length_cons]
    omega
  | error quota slot slots e h ih =>
    rw [firstValues_cons_of_error h, settle_cons_of_error h, List.length_cons, List.length_cons]
    omega

end Slot

/-! ## Scans -/

namespace Scope

variable (tracing : Tracing) (parent : Element) (rule : Element → Run α)

/-- A scan gives the values of the first children that match, and settles every child. -/
theorem scan_settles (quota : Nat) (slots : List (Slot ParseError)) :
    (scan tracing parent rule quota slots).values =
        Slot.firstValues (fun c => (rule c).outcome) quota slots ∧
      (scan tracing parent rule quota slots).kept =
        Slot.settle (fun c => (rule c).outcome) quota slots := by
  induction quota, slots using Slot.scan_induction fun c => (rule c).outcome with
  | zero slots =>
    rw [Slot.settle_zero]
    cases slots <;> exact ⟨rfl, rfl⟩
  | nil quota => exact ⟨rfl, rfl⟩
  | ok quota slot slots value h ih =>
    obtain ⟨hvalues, hkept⟩ := ih
    rw [scan_cons_of_ok h, Slot.firstValues_cons_of_ok h, Slot.settle_cons_of_ok h, ← hvalues,
      ← hkept]
    exact ⟨rfl, rfl⟩
  | error quota slot slots e h ih =>
    obtain ⟨hvalues, hkept⟩ := ih
    rw [scan_cons_of_error h, Slot.firstValues_cons_of_error h, Slot.settle_cons_of_error h,
      ← hvalues, ← hkept]
    exact ⟨rfl, rfl⟩

end Scope

namespace Rule

/-- What a rule says of an element on its own. -/
def verdict (tracing : Tracing) (rule : Rule α) (c : Element) : Except ParseError α :=
  (rule.run tracing c).outcome

/-- The rule has a value for the whole of an element. -/
def Matches (tracing : Tracing) (rule : Rule α) (c : Element) : Prop :=
  ∃ value, rule.verdict tracing c = .ok value

section

variable (tracing : Tracing) (quota : Nat) (rule : Rule α) (s : Scope)

theorem outcome_childrenAtMost :
    ((childrenAtMost quota rule).eval tracing s).outcome =
      .ok (Slot.firstValues (rule.verdict tracing) quota s.children) :=
  congrArg Except.ok (Scope.scan_settles tracing s.element (rule.run tracing) quota s.children).1

theorem scope_childrenAtMost :
    ((childrenAtMost quota rule).eval tracing s).scope =
      { s with children := Slot.settle (rule.verdict tracing) quota s.children } :=
  congrArg (fun slots => { s with children := slots })
    (Scope.scan_settles tracing s.element (rule.run tracing) quota s.children).2

theorem outcome_childOpt :
    ((childOpt rule).eval tracing s).outcome =
      .ok (Slot.firstValues (rule.verdict tracing) 1 s.children).head? := by
  unfold childOpt
  rw [eval_bind, Run.andThen_of_ok (outcome_childrenAtMost tracing 1 rule s)]
  rfl

theorem scope_childOpt :
    ((childOpt rule).eval tracing s).scope =
      { s with children := Slot.settle (rule.verdict tracing) 1 s.children } := by
  unfold childOpt
  rw [eval_bind, Run.andThen_of_ok (outcome_childrenAtMost tracing 1 rule s)]
  exact scope_childrenAtMost tracing 1 rule s

end

/-- A rule that has a value and leaves something of an element fails on the whole of it, with
the error that names what it left. -/
theorem run_of_left {tracing : Tracing} {rule : Rule α} {c : Element} {value : α}
    (h : (rule.eval tracing (.ofElement c)).outcome = .ok value)
    (hleft : (rule.eval tracing (.ofElement c)).scope.isDrained = false) :
    (rule.run tracing c).outcome =
      .error (rule.eval tracing (.ofElement c)).scope.remainder :=
  Run.drained_eq_error_iff.mpr (Or.inr ⟨⟨value, h⟩, hleft, rfl⟩)

/-- A rule on children, up to a quota.

* It has a value: what the rule gives for the first children that match it, each on its own.
* A child before the last of these that does not match stays, with the error that the rule
  gives for it, and those after it stay as they are.  Where fewer than the quota match, every
  other child has the error.
* The rest of the scope is as it was, and no child is lost.
* A child does not match either where the rule leaves something of it. -/
theorem eval_childrenAtMost_settles (tracing : Tracing) (quota : Nat) (rule : Rule α)
    (s : Scope) :
    let verdict := fun c => (rule.run tracing c).outcome
    let run := (childrenAtMost quota rule).eval tracing s
    run.outcome = .ok (Slot.firstValues verdict quota s.children) ∧
      run.scope = { s with children := Slot.settle verdict quota s.children } ∧
      (Slot.firstValues verdict quota s.children).length + run.scope.children.length =
        s.children.length ∧
      ∀ c value, (rule.eval tracing (.ofElement c)).outcome = .ok value →
        (rule.eval tracing (.ofElement c)).scope.isDrained = false →
        verdict c = .error (rule.eval tracing (.ofElement c)).scope.remainder := by
  obtain ⟨hvalues, hkept⟩ :=
    Scope.scan_settles tracing s.element (rule.run tracing) quota s.children
  intro verdict run
  have hscope : run.scope = { s with children := Slot.settle verdict quota s.children } := by
    rw [← hkept]
    rfl
  refine ⟨congrArg Except.ok hvalues, hscope, ?_, fun c value => run_of_left⟩
  rw [hscope]
  exact Slot.length_firstValues_add_length_settle

/-- An entry with a number, and maybe more attributes. -/
def entry (number : String) (more : Attributes) : Element :=
  ⟨"entry", ⟨"n", number⟩ :: more, [], none⟩

/-- A scope with entries between notes, one of which has an error already. -/
def register : Scope :=
  ⟨⟨"register", [], [], none⟩, [],
    [⟨⟨"note", [], [], none⟩, [.other "old"]⟩, ⟨entry "1" [], []⟩,
      ⟨entry "2" [⟨"void", "yes"⟩], []⟩, ⟨entry "3" [], []⟩, ⟨⟨"note", [], [], none⟩, []⟩,
      ⟨entry "4" [], []⟩], none⟩

/-- Takes the number of an entry. -/
def entryNumber : Rule String := do
  matchName "entry"
  attr "n"

/-- Of four entries the first two that can be read in full are taken.  The one between them,
of which an attribute would be left, and the note before them have a new error, and what comes
after them has none. -/
theorem eval_childrenAtMost_settles_register :
    ((childrenAtMost 2 entryNumber).eval .silent register).outcome = .ok ["1", "3"] ∧
      ((childrenAtMost 2 entryNumber).eval .silent register).scope.children =
        [⟨⟨"note", [], [], none⟩, [.other "old", .other "Element name is not entry"]⟩,
          ⟨entry "2" [⟨"void", "yes"⟩],
            [.remainingItems (entry "2" [⟨"void", "yes"⟩]) [⟨"void", "yes"⟩] [] none]⟩,
          ⟨⟨"note", [], [], none⟩, []⟩, ⟨entry "4" [], []⟩] ∧
      (entryNumber.run .silent (entry "2" [⟨"void", "yes"⟩])).outcome =
        .error (.remainingItems (entry "2" [⟨"void", "yes"⟩]) [⟨"void", "yes"⟩] [] none) := by
  obtain ⟨houtcome, hscope, _, hleft⟩ :=
    eval_childrenAtMost_settles .silent 2 entryNumber register
  rw [houtcome, hscope]
  exact ⟨rfl, rfl, hleft (entry "2" [⟨"void", "yes"⟩]) "2" rfl rfl⟩

end Rule

end ElementGrammar
