import ElementGrammar.Proofs.Rule.Budget
import ElementGrammar.Proofs.Xsd.Levels

/-!
# The recursion of the grammar

An element may hold a complex type, that a sequence or a choice, and these elements again.  On
the way down each of them is read in a scope of its own, for a child of the one before, so the
recursion ends with the tree.

* `SettledOn` is that a rule over the rule for an element comes to its run on a tree whatever
  the number of levels that it is built to and the number of scopes that may be open, as long as
  both are greater than the height of the tree.
* `settledOn_of_level` is that every rule which looks at no element above its own does so.

`recursion_descends` puts this together with what holds of the scopes that any rule opens.
-/

namespace ElementGrammar.Xsd

variable {α : Type} {a : Arrangement}

/-- On `e` the rule has the run that it has over the rule for an element itself, to any number of
levels and with any budget of scopes above the height of `e`. -/
def SettledOn (e : Element) (a : Arrangement) (rule : Rule ElementDecl → Rule α) : Prop :=
  ∀ (tracing : Tracing) (levels budget : Nat), e.height + 1 ≤ levels → e.height + 1 ≤ budget →
    (rule (ElementDecl.ruleWithin a levels)).runWithin tracing budget e =
      some ((rule (ElementDecl.rule a)).run tracing e)

theorem settledOn_of_level {rule : Rule ElementDecl → Rule α} (hrule : Level rule)
    (e : Element) : SettledOn e a rule := by
  intro tracing levels budget hlevels hbudget
  have hwithin : (rule (ElementDecl.ruleWithin a levels)).run tracing e =
      (withLevels rule a).run tracing e :=
    ((withLevels_agreeBelow hrule levels).run_eq tracing hlevels).symm
  rw [Rule.runWithin_of_height_le tracing _ (Nat.le_of_lt hbudget), hwithin,
    withLevels_run hrule]

/-- A rule that holds no elements comes to its run. -/
theorem level_const (rule : Rule α) : Level fun _ => rule :=
  fun _ => .refl _ _

/-- On every tree the recursion of the grammar descends, and so it ends.

* Whatever rule is run on an element, every scope that is opened on the way is for a child of the
  element whose scope it is opened from.  With that of the element itself there are never more of
  them open than the element is high, and a budget for as many gives the rule its run.
* The rules for elements, complex types, sequences and choices have the runs that they have over
  the rule for an element itself.
* With these and with the rules for attributes and simple types, neither the number of levels nor
  the budget makes a difference above the height of the element.
-/
theorem recursion_descends (a : Arrangement) (e : Element) :
    (∀ {α : Type} (rule : Rule α),
      let trials := rule.trials (.ofElement e)
      (rule.run .full e).attempts = Trial.endedAll trials ∧
        (∀ t ∈ trials, t.Descends e) ∧
        Trial.depthAll trials + 1 ≤ e.height ∧
        ∀ tracing budget,
          Provided (Trial.depthAll trials + 1 ≤ budget) (rule.run tracing e)
            (rule.runWithin tracing budget e)) ∧
      (∀ tracing,
        (ElementDecl.rule a).run tracing e =
            (ElementDecl.ruleOver a (ElementDecl.rule a)).run tracing e ∧
          (ComplexType.rule a).run tracing e =
            (ComplexType.ruleOver a (ElementDecl.rule a)).run tracing e ∧
          (Sequence.rule a).run tracing e =
            (Sequence.ruleOver (ElementDecl.rule a)).run tracing e ∧
          (Choice.rule a).run tracing e =
            (Choice.ruleOver (ElementDecl.rule a)).run tracing e) ∧
      SettledOn e a (ElementDecl.ruleOver a) ∧
      SettledOn e a (ComplexType.ruleOver a) ∧
      SettledOn e a Sequence.ruleOver ∧
      SettledOn e a Choice.ruleOver ∧
      SettledOn e a (fun _ => AttributeDecl.rule a) ∧
      SettledOn e a (fun _ => SimpleType.rule a) := by
  refine ⟨fun {α} rule => ?_, fun tracing => ?_, settledOn_of_level level_elementOver e,
    settledOn_of_level level_complexTypeOver e, settledOn_of_level level_sequenceOver e,
    settledOn_of_level level_choiceOver e, settledOn_of_level (level_const _) e,
    settledOn_of_level (level_const _) e⟩
  · intro trials
    have hs := Scope.sound_ofElement e
    have hattempts : (rule.run .full e).attempts = Trial.endedAll trials := by
      rw [Rule.run, Run.drained_attempts, Rule.attempts_eval]
      exact List.flatMap_singleton' _
    exact ⟨hattempts, rule.trials_descend hs, rule.depthAll_trials_lt hs,
      fun tracing budget => rule.runWithin_provided tracing budget e⟩
  · exact ⟨withLevels_run level_elementOver tracing e,
      withLevels_run level_complexTypeOver tracing e,
      withLevels_run level_sequenceOver tracing e, withLevels_run level_choiceOver tracing e⟩

/-- An element with another one in the sequence of its type. -/
def nestedDeclaration : Element :=
  ⟨"element", [⟨"name", "shelf"⟩],
    [⟨"complexType", [],
      [⟨"sequence", [], [⟨"element", [⟨"name", "book"⟩, ⟨"type", "string"⟩], [], none⟩], none⟩],
      none⟩],
    none⟩

/-- The four scopes of a declared element in another are all open at once, and three are not
enough.  On the way down the alternatives that fail are a named type and an extension. -/
theorem recursion_descends_nested :
    nestedDeclaration.height = 4 ∧
      Trial.depthAll ((ElementDecl.rule .declared).trials (.ofElement nestedDeclaration)) = 3 ∧
      (ElementDecl.rule .declared).runWithin .silent 3 nestedDeclaration = none ∧
      ((ElementDecl.ruleOver .declared (ElementDecl.ruleWithin .declared 5)).runWithin .silent 5
          nestedDeclaration).map (·.outcome) =
        some (.ok ⟨some "shelf", "",
          .given ⟨none, "", none, [], [],
            .sequence ⟨"", ⟨1, some 1⟩, [⟨some "book", "", .named "string", ⟨1, some 1⟩⟩]⟩⟩,
          ⟨1, some 1⟩⟩) := by
  obtain ⟨hany, _, hsettled, _⟩ := recursion_descends .declared nestedDeclaration
  have hdepth : Trial.depthAll
      ((ElementDecl.rule .declared).trials (.ofElement nestedDeclaration)) = 3 := rfl
  refine ⟨by decide, hdepth, ?_, ?_⟩
  · obtain ⟨_, _, _, hbudget⟩ := hany (ElementDecl.rule .declared)
    exact (hbudget .silent 3).eq_none (by rw [hdepth]; decide)
  · rw [hsettled .silent 5 5 (by decide) (by decide)]
    rfl

end ElementGrammar.Xsd
