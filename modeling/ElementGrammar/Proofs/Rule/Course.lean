import ElementGrammar.Proofs.Rule.Explanation

/-!
# The course of a run

A run takes its scope from one state to the next.  On the way items leave, and the children
that stay collect errors.  Nothing comes back and no error is forgotten: a choice tries its
alternatives on copies, so one that fails is no state of the scope itself.

* `Rule.course` lists the states of a scope in order, before and after every step, also after
  steps that fail and are recovered from.  An alternative runs on a copy and a child in a
  scope of its own; the states of these are listed beside, and never mixed with those of the
  scope itself.
* `Course.Descends` says that a list of states leads from one scope to another and that of any
  two states the later one is what is left of the earlier.  `Course.Descends.append` is how
  two runs in sequence keep it.
* `Rule.course_descends` is the induction over rules.
-/

namespace ElementGrammar

variable {α β : Type}

/-! ## Courses -/

/-- The states of a scope on the way of a rule, and those of all scopes that are opened
meanwhile, each in a list of its own. -/
structure Course where
  points : List Scope
  opened : List (List Scope)

namespace Course

def append (c d : Course) : Course :=
  ⟨c.points ++ d.points, c.opened ++ d.opened⟩

/-- One step, with the courses of the scopes that it opens. -/
def step (s s' : Scope) (inside : List Course) : Course :=
  ⟨[s, s'], inside.flatMap fun c => c.points :: c.opened⟩

/-- Goes on from the course of a run that has a value, on the scope that it left. -/
def andThen (c : Course) (r : Run β) (next : β → Scope → Course) : Course :=
  match r.outcome with
  | .ok value => c.append (next value r.scope)
  | .error _ => c

end Course

/-- The course of a rule on a scope.  Every alternative of a choice has a course on the scope
that the choice is given, and every child has one, whether or not it comes to be tried. -/
def Rule.course (tracing : Tracing) {α : Type} : Rule α → Scope → Course
  | .bind rule next, s =>
    (course tracing rule s).andThen (rule.eval tracing s) fun value =>
      course tracing (next value)
  | .attempt rule, s => course tracing rule s
  | .childrenAtMost quota rule, s =>
    .step s ((childrenAtMost quota rule).eval tracing s).scope
      (s.children.map fun slot => course tracing rule (.ofElement slot.element))
  | .choice count rules, s =>
    .step s ((choice count rules).eval tracing s).scope
      (List.ofFn fun i => course tracing (rules i) s)
  | rule, s => .step s (rule.eval tracing s).scope []

/-! ## Steps leave a part of what there was -/

namespace Scope

/-- A rule on children leaves the rest of the scope as it was. -/
theorem tryChildren_shrinks (s : Scope) (tracing : Tracing) (quota : Nat)
    {rule : Element → Run α} (h : ∀ x e, (rule x).outcome = .error e → e.Explains x) :
    s.Shrinks (s.tryChildren tracing quota rule).scope :=
  ⟨rfl, List.Sublist.refl _, scan_kept tracing s.element h quota s.children, Or.inr rfl⟩

/-- A choice leaves what one of its alternatives leaves, or everything. -/
theorem tryVariants_shrinks {s : Scope} (tracing : Tracing) (tried : List ParseError)
    {rules : List (Scope → Run α)} (h : ∀ rule ∈ rules, s.Shrinks (rule s).scope) :
    s.Shrinks (s.tryVariants tracing tried rules).scope := by
  induction rules generalizing tried with
  | nil => exact Shrinks.refl s
  | cons rule rules ih =>
    obtain ⟨hrule, hrules⟩ := List.forall_mem_cons.mp h
    cases hr : (rule s).outcome with
    | ok value =>
      rw [tryVariants_cons_of_ok hr]
      exact hrule
    | error e =>
      rw [tryVariants_cons_of_error hr]
      exact ih (tried ++ [e]) hrules

end Scope

/-! ## Descending courses -/

namespace Course

/-- The states lead from `s` to `s'`, and of any two the later is what is left of the earlier.
The same holds of every scope that is opened on the way. -/
structure Descends (c : Course) (s s' : Scope) : Prop where
  first : c.points.head? = some s
  last : c.points.getLast? = some s'
  points : c.points.Pairwise Scope.Shrinks
  opened : ∀ points ∈ c.opened, points.Pairwise Scope.Shrinks

namespace Descends

variable {c d : Course} {s s' s'' p : Scope}

/-- Every state is what is left of the first. -/
theorem shrinks_of_mem (h : c.Descends s s') (hp : p ∈ c.points) : s.Shrinks p := by
  obtain ⟨later, hpoints⟩ := List.head?_eq_some_iff.mp h.first
  have hordered := h.points
  rw [hpoints] at hp hordered
  rcases List.mem_cons.mp hp with rfl | hlater
  · exact Scope.Shrinks.refl p
  · exact List.rel_of_pairwise_cons hordered hlater

/-- The last state is what is left of every other. -/
theorem shrinks_last_of_mem (h : c.Descends s s') (hp : p ∈ c.points) : p.Shrinks s' := by
  obtain ⟨earlier, hpoints⟩ := List.getLast?_eq_some_iff.mp h.last
  have hordered := h.points
  rw [hpoints] at hp hordered
  obtain ⟨_, _, hcross⟩ := List.pairwise_append.mp hordered
  rcases List.mem_append.mp hp with hearlier | hlast
  · exact hcross p hearlier s' (List.mem_singleton_self s')
  · rw [List.mem_singleton.mp hlast]
    exact Scope.Shrinks.refl s'

theorem shrinks (h : c.Descends s s') : s.Shrinks s' :=
  h.shrinks_of_mem (List.mem_of_getLast? h.last)

/-- Where one course begins as another ends, the states of both descend. -/
theorem append (h : c.Descends s s') (h' : d.Descends s' s'') :
    (c.append d).Descends s s'' where
  first := by
    rw [Course.append, List.head?_append, h.first]
    rfl
  last := by
    rw [Course.append, List.getLast?_append, h'.last]
    rfl
  points := by
    refine List.pairwise_append.mpr ⟨h.points, h'.points, ?_⟩
    intro p hp q hq
    have hbefore : p.Shrinks s' := h.shrinks_last_of_mem hp
    have hafter : s'.Shrinks q := h'.shrinks_of_mem hq
    exact hbefore.trans hafter
  opened := by
    intro points hpoints
    rcases List.mem_append.mp hpoints with hpoints | hpoints
    · exact h.opened points hpoints
    · exact h'.opened points hpoints

/-- A run that goes on from another descends where both do. -/
theorem andThen {r : Run β} {next : β → Scope → Run α} {nextCourse : β → Scope → Course}
    (h : c.Descends s r.scope)
    (hnext : ∀ value, (nextCourse value r.scope).Descends r.scope (next value r.scope).scope) :
    (c.andThen r nextCourse).Descends s (r.andThen next).scope := by
  unfold Course.andThen
  cases hr : r.outcome with
  | error e =>
    rw [Run.andThen_of_error hr]
    exact h
  | ok value =>
    rw [Run.andThen_of_ok hr]
    exact h.append (hnext value)

/-- A step descends where it leaves a part and what it opens descends. -/
theorem step {inside : List Course} (h : s.Shrinks s')
    (hinside : ∀ c ∈ inside, ∃ t t', c.Descends t t') :
    (Course.step s s' inside).Descends s s' where
  first := rfl
  last := rfl
  points := List.pairwise_pair.mpr h
  opened := by
    intro points hpoints
    obtain ⟨c, hc, hmem⟩ := List.mem_flatMap.mp hpoints
    obtain ⟨t, t', hdescends⟩ := hinside c hc
    rcases List.mem_cons.mp hmem with rfl | hmem
    · exact hdescends.points
    · exact hdescends.opened points hmem

theorem step_alone (h : s.Shrinks s') : (Course.step s s' []).Descends s s' :=
  step h (by simp)

end Descends

end Course

namespace Rule

/-- The course of a rule descends to the scope that the rule leaves. -/
theorem course_descends (tracing : Tracing) (rule : Rule α) (s : Scope) :
    (rule.course tracing s).Descends s (rule.eval tracing s).scope := by
  induction rule generalizing s with
  | pure | fail | element | scope | ensureDrained | missingChild =>
    exact .step_alone (Scope.Shrinks.refl s)
  | takeAttr key => exact .step_alone (s.takeAttr_shrinks key)
  | dropAttrsFrom start => exact .step_alone (s.dropAttrsFrom_shrinks start)
  | takeText => exact .step_alone s.takeText_shrinks
  | dropChildrenNamed name => exact .step_alone (s.dropChildrenNamed_shrinks name)
  | bind rule next ih ihNext =>
    exact (ih s).andThen fun value => ihNext value _
  | attempt rule ih => exact ih s
  | childrenAtMost quota rule ih =>
    refine .step (s.tryChildren_shrinks tracing quota ?_) ?_
    · intro x e he
      have hsound := Scope.sound_ofElement x
      exact ((rule.eval_explained tracing hsound).drained hsound).error e he
    · intro c hc
      obtain ⟨slot, _, rfl⟩ := List.mem_map.mp hc
      exact ⟨_, _, ih (.ofElement slot.element)⟩
  | choice count rules ih =>
    refine .step (Scope.tryVariants_shrinks tracing [] ?_) ?_
    · intro r hr
      obtain ⟨i, rfl⟩ := List.mem_ofFn.mp hr
      exact (ih i s).shrinks
    · intro c hc
      obtain ⟨i, rfl⟩ := List.mem_ofFn.mp hc
      exact ⟨_, _, ih i s⟩

/-- Of any two states of a scope on the way of a rule, the later one is of the same element,
and holds a part of the attributes and of the children of the earlier one, in order, with the
same text or none; the children may have more errors after those that they had.  The states
go from the scope as it was given to what the rule leaves of it, whether or not the rule
fails.  The same holds inside every alternative and every child. -/
theorem course_pairwise_shrinks (tracing : Tracing) (rule : Rule α) (s : Scope) :
    let course := rule.course tracing s
    course.points.head? = some s ∧
      course.points.getLast? = some (rule.eval tracing s).scope ∧
      (∀ p ∈ course.points, p.element = s.element) ∧
      course.points.Pairwise Scope.Shrinks ∧
      ∀ points ∈ course.opened, points.Pairwise Scope.Shrinks := by
  intro course
  have h : course.Descends s (rule.eval tracing s).scope := rule.course_descends tracing s
  refine ⟨h.first, h.last, ?_, h.points, h.opened⟩
  intro p hp
  exact (h.shrinks_of_mem hp).element

/-- An element with two attributes and a child. -/
def plate : Element :=
  ⟨"plate", [⟨"j", "0"⟩, ⟨"k", "1"⟩], [⟨"note", [], [], none⟩], none⟩

/-- Recovers from a failure after an attribute is taken, and then from that of an alternative
after the child has an error. -/
def recoveringRule : Rule (Option String) := do
  let _ ← attempt (takeAttr "k" >>= fun _ => (fail "no" : Rule Unit))
  oneOf [childrenOpt (fail "new" : Rule Unit) >>= fun _ => fail "no", takeAttr "j"]

/-- What was taken before the failure stays taken.  The error of the child is in the course of
the alternative, and not in that of the scope. -/
theorem course_pairwise_shrinks_recovered :
    let course := recoveringRule.course .silent (.ofElement plate)
    (course.points.map (·.attrs) =
        [plate.attrs, [⟨"j", "0"⟩], [⟨"j", "0"⟩], [⟨"j", "0"⟩], [⟨"j", "0"⟩], []] ∧
      course.points.Pairwise Scope.Shrinks) ∧
    ∃ points ∈ course.opened,
      (points.map fun p => p.children.map (·.errors)) =
          [[[]], [[.other "new"]], [[.other "new"]], [[.other "new"]]] ∧
        points.Pairwise Scope.Shrinks := by
  intro course
  obtain ⟨_, _, _, hpoints, hopened⟩ :=
    course_pairwise_shrinks .silent recoveringRule (.ofElement plate)
  exact ⟨⟨rfl, hpoints⟩, _, List.mem_cons_self, rfl, hopened _ List.mem_cons_self⟩

end Rule

end ElementGrammar
