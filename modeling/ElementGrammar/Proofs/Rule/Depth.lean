import ElementGrammar.Proofs.Rule.Explanation

/-!
# Rules that agree to a depth

A rule on children runs on elements that are lower than its own.  So where two rules run
alike on low elements, the rules on children that are made of them run alike on elements
that are higher by one.

* `Rule.AgreeBelow` is that two rules have the same run on whatever is left of any element
  lower than a bound.
* Every combinator keeps it, and the ones on children raise the bound:
  `Rule.AgreeBelow.childrenAtMost` and those below it.
-/

namespace ElementGrammar

variable {α β : Type}

/-! ## Heights -/

namespace Element

theorem height_le_heightOfAll {c : Element} {cs : List Element} (h : c ∈ cs) :
    c.height ≤ heightOfAll cs := by
  induction cs with
  | nil => cases h
  | cons d cs ih =>
    rw [heightOfAll]
    rcases List.mem_cons.mp h with rfl | h
    · exact Nat.le_max_left _ _
    · exact Nat.le_trans (ih h) (Nat.le_max_right _ _)

theorem height_pos (e : Element) : 0 < e.height := by
  cases e
  exact Nat.succ_pos _

/-- Children are lower than the element that holds them. -/
theorem height_lt_of_mem {c e : Element} (h : c ∈ e.children) : c.height < e.height := by
  cases e
  rw [height]
  exact Nat.lt_succ_of_le (height_le_heightOfAll h)

end Element

/-! ## Children and alternatives -/

namespace Scope

variable {tracing : Tracing}

/-- A scan only runs its rule on the children that it is given. -/
theorem scan_congr {parent : Element} {rule rule' : Element → Run α} {quota : Nat}
    {slots : List (Slot ParseError)}
    (h : ∀ slot ∈ slots, rule slot.element = rule' slot.element) :
    scan tracing parent rule quota slots = scan tracing parent rule' quota slots := by
  induction slots generalizing quota with
  | nil => cases quota <;> rfl
  | cons slot slots ih =>
    obtain ⟨hslot, hslots⟩ := List.forall_mem_cons.mp h
    cases quota with
    | zero => rfl
    | succ quota =>
      cases hr : (rule slot.element).outcome with
      | ok value =>
        rw [scan_cons_of_ok hr, scan_cons_of_ok (hslot ▸ hr), ih hslots, hslot]
      | error e =>
        rw [scan_cons_of_error hr, scan_cons_of_error (hslot ▸ hr), ih hslots, hslot]

/-- Alternatives only run on the scope itself. -/
theorem tryVariants_congr {s : Scope} {tried : List ParseError}
    {rules rules' : List (Scope → Run α)}
    (h : List.Forall₂ (fun rule rule' => rule s = rule' s) rules rules') :
    s.tryVariants tracing tried rules = s.tryVariants tracing tried rules' := by
  induction h generalizing tried with
  | nil => rfl
  | @cons rule rule' rules rules' hrule _ ih =>
    cases hr : (rule s).outcome with
    | ok value => rw [tryVariants_cons_of_ok hr, tryVariants_cons_of_ok (hrule ▸ hr), hrule]
    | error e =>
      rw [tryVariants_cons_of_error hr, tryVariants_cons_of_error (hrule ▸ hr), ih, hrule]

end Scope

/-! ## Agreement -/

namespace Rule

/-- The rules run alike on whatever is left of any element lower than `h`. -/
def AgreeBelow (h : Nat) (rule rule' : Rule α) : Prop :=
  ∀ (tracing : Tracing) (s : Scope), s.Sound → s.element.height < h →
    rule.eval tracing s = rule'.eval tracing s

namespace AgreeBelow

variable {h : Nat} {rule rule' : Rule α}

theorem refl (h : Nat) (rule : Rule α) : rule.AgreeBelow h rule :=
  fun _ _ _ _ => rfl

theorem symm (hr : rule.AgreeBelow h rule') : rule'.AgreeBelow h rule :=
  fun tracing s hs hlow => (hr tracing s hs hlow).symm

theorem trans {rule'' : Rule α} (hr : rule.AgreeBelow h rule')
    (hr' : rule'.AgreeBelow h rule'') : rule.AgreeBelow h rule'' :=
  fun tracing s hs hlow => (hr tracing s hs hlow).trans (hr' tracing s hs hlow)

theorem mono {k : Nat} (hr : rule.AgreeBelow h rule') (hk : k ≤ h) : rule.AgreeBelow k rule' :=
  fun tracing s hs hlow => hr tracing s hs (Nat.lt_of_lt_of_le hlow hk)

/-- Rules that agree have the same run on an element that is low enough. -/
theorem run_eq (hr : rule.AgreeBelow h rule') (tracing : Tracing) {e : Element}
    (he : e.height < h) : rule.run tracing e = rule'.run tracing e := by
  rw [run, run, hr tracing _ (Scope.sound_ofElement e) he]

theorem bind {first first' : Rule β} {next next' : β → Rule α}
    (hfirst : first.AgreeBelow h first')
    (hnext : ∀ value, (next value).AgreeBelow h (next' value)) :
    (first >>= next).AgreeBelow h (first' >>= next') := by
  intro tracing s hs hlow
  rw [eval_bind, eval_bind, ← hfirst tracing s hs hlow]
  have hrun := first.eval_explained tracing hs
  cases ho : (first.eval tracing s).outcome with
  | error e => rw [Run.andThen_of_error ho, Run.andThen_of_error ho]
  | ok value =>
    have hlow' : (first.eval tracing s).scope.element.height < h := hrun.shrinks.element ▸ hlow
    rw [Run.andThen_of_ok ho, Run.andThen_of_ok ho,
      hnext value tracing _ (hrun.shrinks.sound hs) hlow']

theorem ite {p : Prop} [Decidable p] {other other' : Rule α} (hr : rule.AgreeBelow h rule')
    (hother : other.AgreeBelow h other') :
    (if p then rule else other).AgreeBelow h (if p then rule' else other') := by
  split
  · exact hr
  · exact hother

theorem oneOf {rules rules' : List (Rule α)} (hr : List.Forall₂ (AgreeBelow h) rules rules') :
    (oneOf rules).AgreeBelow h (oneOf rules') := by
  intro tracing s hs hlow
  rw [eval_oneOf, eval_oneOf]
  refine Scope.tryVariants_congr ?_
  rw [List.forall₂_map_left_iff, List.forall₂_map_right_iff]
  exact hr.imp fun rule rule' hr => hr tracing s hs hlow

/-! Rules on children raise the bound. -/

theorem childrenAtMost (hr : rule.AgreeBelow h rule') (quota : Nat) :
    (childrenAtMost quota rule).AgreeBelow (h + 1) (childrenAtMost quota rule') := by
  intro tracing s hs hlow
  show s.tryChildren tracing quota (fun c => (rule.eval tracing (.ofElement c)).drained) =
    s.tryChildren tracing quota fun c => (rule'.eval tracing (.ofElement c)).drained
  unfold Scope.tryChildren
  rw [Scope.scan_congr]
  intro slot hslot
  have hmem : slot.element ∈ s.element.children :=
    hs.children_sublist.subset (List.mem_map_of_mem hslot)
  have hheight := Element.height_lt_of_mem hmem
  exact hr.run_eq tracing (by omega)

theorem childOpt (hr : rule.AgreeBelow h rule') :
    (childOpt rule).AgreeBelow (h + 1) (childOpt rule') :=
  (hr.childrenAtMost 1).bind fun _ => refl _ _

theorem child (hr : rule.AgreeBelow h rule') : (child rule).AgreeBelow (h + 1) (child rule') :=
  hr.childOpt.bind fun _ => refl _ _

theorem childrenOpt (hr : rule.AgreeBelow h rule') :
    (childrenOpt rule).AgreeBelow (h + 1) (childrenOpt rule') :=
  hr.childrenAtMost unlimited

theorem children (hr : rule.AgreeBelow h rule') :
    (children rule).AgreeBelow (h + 1) (children rule') :=
  hr.childrenOpt.bind fun _ => refl _ _

end AgreeBelow

end Rule

end ElementGrammar
