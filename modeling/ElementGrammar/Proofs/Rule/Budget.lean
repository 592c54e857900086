import ElementGrammar.Proofs.Rule.Depth
import ElementGrammar.Proofs.Rule.Trials

/-!
# Scopes inside scopes

A rule on children opens a scope for each child that it is tried on, and inside that scope
further ones may be opened.  Rules do not look at the tree to do so, only at the children that
are left in the scope that they are given.  Whatever was taken out before, and whichever
alternative left the scope, these are children of its own element, so every scope that is opened
inside another one is for an element further down.

* `Trial.Descends` says this of a trial and of all those inside it, and
  `Rule.trials_descend` is the induction over rules.  What carries it is `Scope.Sound`.
* `Trial.depth` counts the scopes that are open at once, and `Trial.Descends.depth_lt` bounds
  it by the height of the element.
* `Rule.evalWithin` runs a rule that may open so many scopes inside each other and no more.  It
  has no run where it comes to open a further one.  `Rule.evalWithin_provided` is that it has the
  run without a budget, provided that the trials are no deeper than the budget.
* `Rule.runWithin_of_height_le` puts the two together: the height of an element suffices for any
  rule.
-/

namespace ElementGrammar

variable {α ι : Type}

/-! ## Descending trials -/

namespace Trial

/-- A trial in a scope of an element, in which every scope that is opened is for a child of the
element whose scope it is opened from. -/
inductive Descends : Element → Trial → Prop where
  | child {x c : Element} {failure : Option ParseError} {inside : List Trial}
      (mem : c ∈ x.children) (descend : ∀ t ∈ inside, Descends c t) :
      Descends x ⟨.child x c failure, inside⟩
  | variant {x : Element} {index : Nat} {failure : Option ParseError} {inside : List Trial}
      (descend : ∀ t ∈ inside, Descends x t) :
      Descends x ⟨.variant x index failure, inside⟩

end Trial

/-- The trials of a rule on what is left of an element descend from it. -/
theorem Rule.trials_descend (rule : Rule α) {s : Scope} (hs : s.Sound) :
    ∀ t ∈ rule.trials s, t.Descends s.element := by
  induction rule generalizing s with
  | pure | fail | element | scope | takeAttr | dropAttrsFrom | takeText | dropChildrenNamed
  | ensureDrained | missingChild =>
    intro t ht
    cases ht
  | attempt rule ih => exact ih hs
  | bind rule next ih ihNext =>
    intro t ht
    rw [trials] at ht
    rcases List.mem_append.mp ht with ht | ht
    · exact ih hs t ht
    · -- What the first rule leaves is still a part of the same element.
      have hshrinks := (rule.eval_explained .silent hs).shrinks
      cases ho : (rule.eval .silent s).outcome with
      | error e =>
        rw [ho] at ht
        cases ht
      | ok value =>
        rw [ho] at ht
        exact hshrinks.element ▸ ihNext value (hshrinks.sound hs) t ht
  | childrenAtMost quota rule ih =>
    intro t ht
    obtain ⟨place, slot, hplace, _, rfl⟩ := mem_trials_childrenAtMost.mp ht
    have hslot : slot ∈ s.children := List.mem_of_getElem? hplace
    have hmem : slot.element ∈ s.element.children :=
      hs.children_sublist.subset (List.mem_map_of_mem hslot)
    exact .child hmem (ih (Scope.sound_ofElement slot.element))
  | choice count rules ih =>
    intro t ht
    obtain ⟨i, _, rfl⟩ := mem_trials_choice.mp ht
    exact .variant (ih i hs)

/-! ## How deep trials go -/

namespace Trial

mutual

/-- The number of scopes that a trial and those inside it open inside each other.  An alternative
runs on a copy of the scope and opens none. -/
def depth : Trial → Nat
  | ⟨.child _ _ _, inside⟩ => depthAll inside + 1
  | ⟨.variant _ _ _, inside⟩ => depthAll inside

def depthAll : List Trial → Nat
  | [] => 0
  | t :: ts => max (depth t) (depthAll ts)

end

theorem depthAll_le_iff {ts : List Trial} {n : Nat} :
    depthAll ts ≤ n ↔ ∀ t ∈ ts, t.depth ≤ n := by
  induction ts with
  | nil => simp [depthAll]
  | cons t ts ih => rw [depthAll, Nat.max_le, ih, List.forall_mem_cons]

theorem depthAll_append_le_iff {ts us : List Trial} {n : Nat} :
    depthAll (ts ++ us) ≤ n ↔ depthAll ts ≤ n ∧ depthAll us ≤ n := by
  simp only [depthAll_le_iff, List.forall_mem_append]

theorem depthAll_map_le_iff {f : ι → Trial} {xs : List ι} {n : Nat} :
    depthAll (xs.map f) ≤ n ↔ ∀ x ∈ xs, (f x).depth ≤ n := by
  rw [depthAll_le_iff, List.forall_mem_map]

theorem depthAll_lt {ts : List Trial} {n : Nat} (hn : 0 < n) (h : ∀ t ∈ ts, t.depth < n) :
    depthAll ts < n := by
  have hle : depthAll ts ≤ n - 1 :=
    depthAll_le_iff.mpr fun t ht => Nat.le_sub_one_of_lt (h t ht)
  omega

/-- Trials that descend from an element open fewer scopes inside each other than it is high. -/
theorem Descends.depth_lt {x : Element} {t : Trial} (h : t.Descends x) : t.depth < x.height := by
  induction h with
  | @child x c failure inside mem _ ih =>
    have hinside : depthAll inside < c.height := depthAll_lt c.height_pos ih
    have hchild : c.height < x.height := Element.height_lt_of_mem mem
    rw [depth]
    omega
  | @variant x index failure inside _ ih => exact depthAll_lt x.height_pos ih

end Trial

/-- Together with the scope of the element itself a rule never has more scopes open than the
element is high. -/
theorem Rule.depthAll_trials_lt (rule : Rule α) {s : Scope} (hs : s.Sound) :
    Trial.depthAll (rule.trials s) < s.element.height :=
  Trial.depthAll_lt s.element.height_pos fun t ht => (rule.trials_descend hs t ht).depth_lt

/-! ## Runs with a budget -/

namespace Scope

/-- `Scope.scan` with a rule that may have no run on a child. -/
def scan? (tracing : Tracing) (parent : Element) (rule : Element → Option (Run α)) :
    (quota : Nat) → List (Slot ParseError) → Option (Scan α)
  | 0, slots => some ⟨[], slots, []⟩
  | _ + 1, [] => some ⟨[], [], []⟩
  | quota + 1, slot :: slots =>
    (rule slot.element).bind fun run =>
      let made := childAttempts tracing parent slot run
      match run.outcome with
      | .ok value =>
        (scan? tracing parent rule quota slots).map fun rest =>
          ⟨value :: rest.values, rest.kept, made ++ rest.attempts⟩
      | .error e =>
        (scan? tracing parent rule (quota + 1) slots).map fun rest =>
          ⟨rest.values, slot.withError e :: rest.kept, made ++ rest.attempts⟩

/-- `Scope.tryVariants` with rules that may have no run. -/
def tryVariants? (s : Scope) (tracing : Tracing) (tried : List ParseError) :
    List (Scope → Option (Run α)) → Option (Run α)
  | [] => some ⟨.error (.noMatchingVariant s.element tried), s, []⟩
  | rule :: rules =>
    (rule s).bind fun run =>
      let made := variantAttempts s tracing tried run
      match run.outcome with
      | .ok value => some ⟨.ok value, run.scope, made⟩
      | .error e => (tryVariants? s tracing (tried ++ [e]) rules).map (·.after made)

/-- Opens a scope for an element and runs a rule on it that has to take everything.  The scope
takes one of the budget, and the rule has the rest of it. -/
def openWithin (rule : Nat → Scope → Option (Run α)) : (budget : Nat) → Element → Option (Run α)
  | 0, _ => none
  | budget + 1, e => (rule budget (.ofElement e)).map Run.drained

end Scope

/-- Runs a rule that may open scopes inside each other up to a budget.  It has no run where it
comes to open one more. -/
def Rule.evalWithin (tracing : Tracing) {α : Type} :
    Rule α → (budget : Nat) → Scope → Option (Run α)
  | .bind rule next, budget, s =>
    (evalWithin tracing rule budget s).bind fun run =>
      match run.outcome with
      | .ok value => (evalWithin tracing (next value) budget run.scope).map (·.after run.attempts)
      | .error e => some ⟨.error e, run.scope, run.attempts⟩
  | .childrenAtMost quota rule, budget, s =>
    (Scope.scan? tracing s.element (Scope.openWithin (evalWithin tracing rule) budget) quota
      s.children).map fun found =>
        ⟨.ok found.values, { s with children := found.kept }, found.attempts⟩
  | .choice _ rules, budget, s =>
    s.tryVariants? tracing [] (List.ofFn fun i => evalWithin tracing (rules i) budget)
  | .attempt rule, budget, s =>
    (evalWithin tracing rule budget s).map fun run => ⟨.ok run.outcome, run.scope, run.attempts⟩
  | rule, _, s => some (rule.eval tracing s)

/-- Runs a rule on an element, all of which it has to take, with a budget for the scope of the
element and those inside it. -/
def Rule.runWithin (tracing : Tracing) (rule : Rule α) (budget : Nat) (e : Element) :
    Option (Run α) :=
  Scope.openWithin (rule.evalWithin tracing) budget e

/-! ## Budgets that suffice -/

/-- What may have no value has the value `x` provided that a condition holds, and otherwise
none. -/
def Provided {γ : Type} (p : Prop) (x : γ) (x? : Option γ) : Prop :=
  ∀ y, x? = some y ↔ p ∧ y = x

namespace Provided

variable {γ δ : Type} {p q : Prop} {x : γ} {x? : Option γ}

theorem of_eq_some (h : x? = some x) : Provided True x x? := by
  intro y
  rw [h, Option.some_inj, true_and, eq_comm]

theorem congr (h : Provided p x x?) (hpq : p ↔ q) : Provided q x x? := by
  intro y
  rw [h y, hpq]

theorem map (h : Provided p x x?) (f : γ → δ) : Provided p (f x) (x?.map f) := by
  intro y
  rw [Option.map_eq_some_iff]
  constructor
  · rintro ⟨_, hx, rfl⟩
    obtain ⟨hp, rfl⟩ := (h _).mp hx
    exact ⟨hp, rfl⟩
  · rintro ⟨hp, rfl⟩
    exact ⟨x, (h x).mpr ⟨hp, rfl⟩, rfl⟩

theorem bind {f : γ → Option δ} {y : δ} (h : Provided p x x?) (hf : Provided q y (f x)) :
    Provided (p ∧ q) y (x?.bind f) := by
  intro z
  rw [Option.bind_eq_some_iff]
  constructor
  · rintro ⟨_, hx, hz⟩
    obtain ⟨hp, rfl⟩ := (h _).mp hx
    obtain ⟨hq, rfl⟩ := (hf z).mp hz
    exact ⟨⟨hp, hq⟩, rfl⟩
  · rintro ⟨⟨hp, hq⟩, rfl⟩
    exact ⟨x, (h x).mpr ⟨hp, rfl⟩, (hf z).mpr ⟨hq, rfl⟩⟩

theorem eq_some (h : Provided p x x?) (hp : p) : x? = some x :=
  (h x).mpr ⟨hp, rfl⟩

theorem eq_none (h : Provided p x x?) (hp : ¬p) : x? = none :=
  Option.eq_none_iff_forall_ne_some.mpr fun y hy => hp ((h y).mp hy).1

end Provided

namespace Scope

variable {tracing : Tracing}

/-- A scan has a run provided that its rule has one on every child that is reached. -/
theorem scan?_provided {rule : Element → Run α} {rule? : Element → Option (Run α)}
    {fits : Element → Prop} (h : ∀ c, Provided (fits c) (rule c) (rule? c)) (parent : Element)
    (quota : Nat) (slots : List (Slot ParseError)) :
    Provided
      (∀ x ∈ reached (fun slot => (rule slot.element).outcome.isOk) quota slots,
        fits x.1.element)
      (scan tracing parent rule quota slots) (scan? tracing parent rule? quota slots) := by
  induction quota, slots using Slot.scan_induction fun c => (rule c).outcome with
  | zero slots =>
    refine (Provided.of_eq_some ?_).congr (by simp [reached_zero])
    cases slots <;> rfl
  | nil quota => exact (Provided.of_eq_some rfl).congr (by simp [reached])
  | ok quota slot slots value hr ih =>
    rw [scan?, scan_cons_of_ok hr,
      reached_cons_of_ok (fun c : Slot ParseError => (rule c.element).outcome) hr,
      List.forall_mem_cons, List.forall_mem_map]
    refine (h slot.element).bind ?_
    rw [hr]
    exact ih.map _
  | error quota slot slots e hr ih =>
    rw [scan?, scan_cons_of_error hr,
      reached_cons_of_error (fun c : Slot ParseError => (rule c.element).outcome) hr,
      List.forall_mem_cons, List.forall_mem_map]
    refine (h slot.element).bind ?_
    rw [hr]
    exact ih.map _

/-- A choice has a run provided that every alternative that is reached has one. -/
theorem tryVariants?_provided {s : Scope} {tried : List ParseError} {run : ι → Scope → Run α}
    {run? : ι → Scope → Option (Run α)} {fits : ι → Prop}
    (h : ∀ x, Provided (fits x) (run x s) (run? x s)) (xs : List ι) :
    Provided (∀ x ∈ reached (fun x => (run x s).outcome.isOk) 1 xs, fits x.1)
      (s.tryVariants tracing tried (xs.map run)) (s.tryVariants? tracing tried (xs.map run?)) := by
  induction xs generalizing tried with
  | nil => exact (Provided.of_eq_some rfl).congr (by simp [reached])
  | cons x xs ih =>
    rw [List.map_cons, List.map_cons, tryVariants?]
    cases hr : (run x s).outcome with
    | ok value =>
      rw [tryVariants_cons_of_ok hr, reached_cons_of_ok (fun x => (run x s).outcome) hr,
        reached_zero, List.forall_mem_cons]
      refine (h x).bind ?_
      rw [hr]
      exact (Provided.of_eq_some rfl).congr (by simp)
    | error e =>
      rw [tryVariants_cons_of_error hr, reached_cons_of_error (fun x => (run x s).outcome) hr,
        List.forall_mem_cons, List.forall_mem_map]
      refine (h x).bind ?_
      rw [hr]
      exact ih.map _

/-- Opening a scope takes one of the budget. -/
theorem openWithin_provided {rule : Scope → Run α} {rule? : Nat → Scope → Option (Run α)}
    {e : Element} {n : Nat}
    (h : ∀ budget, Provided (n ≤ budget) (rule (.ofElement e)) (rule? budget (.ofElement e)))
    (budget : Nat) :
    Provided (n + 1 ≤ budget) (rule (.ofElement e)).drained (openWithin rule? budget e) := by
  cases budget with
  | zero => simp [Provided, openWithin]
  | succ budget => exact ((h budget).map Run.drained).congr (by omega)

end Scope

namespace Rule

theorem evalWithin_choice (tracing : Tracing) (count : Nat) (rules : Fin count → Rule α)
    (budget : Nat) (s : Scope) :
    (choice count rules).evalWithin tracing budget s =
      s.tryVariants? tracing []
        ((List.finRange count).map fun i => (rules i).evalWithin tracing budget) := by
  rw [evalWithin, List.finRange, List.map_ofFn]
  rfl

/-- A run with a budget is the run without one, provided that its trials are no deeper. -/
theorem evalWithin_provided (tracing : Tracing) (rule : Rule α) (budget : Nat) (s : Scope) :
    Provided (Trial.depthAll (rule.trials s) ≤ budget) (rule.eval tracing s)
      (rule.evalWithin tracing budget s) := by
  induction rule generalizing budget s with
  | pure | fail | element | scope | takeAttr | dropAttrsFrom | takeText | dropChildrenNamed
  | ensureDrained | missingChild =>
    exact (Provided.of_eq_some rfl).congr (iff_of_true trivial (Nat.zero_le _))
  | attempt rule ih => exact (ih budget s).map _
  | bind rule next ih ihNext =>
    -- Trials are those of runs that keep no attempts, which end as this one does.
    obtain ⟨houtcome, hscope⟩ := rule.eval_untraced tracing s
    rw [eval, evalWithin, trials, Trial.depthAll_append_le_iff, ← houtcome, ← hscope]
    refine (ih budget s).bind ?_
    cases hr : (rule.eval tracing s).outcome with
    | ok value =>
      rw [Run.andThen_of_ok hr]
      exact (ihNext value budget _).map _
    | error e =>
      rw [Run.andThen_of_error hr]
      exact (Provided.of_eq_some rfl).congr (by simp [Trial.depthAll])
  | childrenAtMost quota rule ih =>
    have hverdict : rule.verdict .silent = fun c => (rule.run tracing c).outcome :=
      funext fun c => (rule.run_untraced tracing c).1.symm
    have hopen (c : Element) :=
      Scope.openWithin_provided (fun budget => ih budget (.ofElement c)) budget
    rw [trials, Trial.depthAll_map_le_iff, hverdict]
    exact (Scope.scan?_provided hopen s.element quota s.children).map _
  | choice count rules ih =>
    have hgood : (fun i => ((rules i).eval .silent s).outcome.isOk) =
        fun i => ((rules i).eval tracing s).outcome.isOk :=
      funext fun i => congrArg Except.isOk ((rules i).eval_untraced tracing s).1.symm
    rw [trials, Trial.depthAll_map_le_iff, hgood, eval_choice, evalWithin_choice]
    exact Scope.tryVariants?_provided (fun i => ih i budget s) _

theorem runWithin_provided (tracing : Tracing) (rule : Rule α) (budget : Nat) (e : Element) :
    Provided (Trial.depthAll (rule.trials (.ofElement e)) + 1 ≤ budget) (rule.run tracing e)
      (rule.runWithin tracing budget e) :=
  Scope.openWithin_provided (fun budget => rule.evalWithin_provided tracing budget _) budget

/-- The height of an element is enough of a budget for any rule on it. -/
theorem runWithin_of_height_le (tracing : Tracing) (rule : Rule α) {budget : Nat} {e : Element}
    (h : e.height ≤ budget) : rule.runWithin tracing budget e = some (rule.run tracing e) := by
  have hdepth := rule.depthAll_trials_lt (Scope.sound_ofElement e)
  exact (rule.runWithin_provided tracing budget e).eq_some (Nat.le_trans hdepth h)

end Rule

end ElementGrammar
