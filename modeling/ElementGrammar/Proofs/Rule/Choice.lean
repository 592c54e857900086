import ElementGrammar.Proofs.Rule.Run

/-!
# Ordered choice as a transaction

A choice runs its alternatives one after the other on the scope that it is given
itself.  The first to match is committed: its value and its scope are those of
the choice.  Where none matches the scope is what it was before the choice.

* `Fails` collects the errors of alternatives that all fail on one scope, and
  `fails_or_matches` splits a list of alternatives at the first that matches.
* `tryVariants_append_of_fails` skips alternatives that fail.  The lemmas below
  it are the two ways in which a choice ends.
* `tryVariants_agrees` says that the errors collected so far decide nothing but
  the error of the choice.  A choice inside a choice differs from the flat list
  of alternatives in these errors only.

Nothing here asks what the alternatives do: they may take items, add errors to
children, or be choices themselves.
-/

namespace ElementGrammar

variable {α : Type}

/-- Two runs with the same scope that match alike, with the same value. -/
def Run.Agrees (r r' : Run α) : Prop :=
  r.scope = r'.scope ∧ r.outcome.toOption = r'.outcome.toOption

namespace Scope

variable {s : Scope} {tracing : Tracing} {tried errors : List ParseError}
variable {rules before after : List (Scope → Run α)} {rule : Scope → Run α}

/-- Alternatives that all fail on a scope, with their errors in order. -/
def Fails (s : Scope) (rules : List (Scope → Run α)) (errors : List ParseError) : Prop :=
  rules.map (fun rule => (rule s).outcome) = errors.map .error

theorem Fails.cons {e : ParseError} (hrule : (rule s).outcome = .error e)
    (h : s.Fails rules errors) : s.Fails (rule :: rules) (e :: errors) := by
  unfold Fails at h ⊢
  rw [List.map_cons, List.map_cons, hrule, h]

theorem Fails.append {errors' : List ParseError} (h : s.Fails before errors)
    (h' : s.Fails after errors') : s.Fails (before ++ after) (errors ++ errors') := by
  unfold Fails at h h' ⊢
  rw [List.map_append, List.map_append, h, h']

theorem Fails.cons_inv (h : s.Fails (rule :: rules) errors) :
    ∃ e rest, errors = e :: rest ∧ (rule s).outcome = .error e ∧ s.Fails rules rest := by
  cases errors with
  | nil => cases h
  | cons e rest =>
    injection h with hrule hrules
    exact ⟨e, rest, rfl, hrule, hrules⟩

theorem fails_of_forall (h : ∀ rule ∈ rules, ∃ e, (rule s).outcome = .error e) :
    ∃ errors, s.Fails rules errors := by
  induction rules with
  | nil => exact ⟨[], rfl⟩
  | cons rule rules ih =>
    obtain ⟨e, he⟩ := h rule List.mem_cons_self
    obtain ⟨errors, herrors⟩ := ih fun r hr => h r (List.mem_cons_of_mem _ hr)
    exact ⟨e :: errors, herrors.cons he⟩

/-- Alternatives all fail, or there is a first one that matches. -/
theorem fails_or_matches (s : Scope) (rules : List (Scope → Run α)) :
    (∃ errors, s.Fails rules errors) ∨
      ∃ before rule after errors value, rules = before ++ rule :: after ∧
        s.Fails before errors ∧ (rule s).outcome = .ok value := by
  induction rules with
  | nil => exact Or.inl ⟨[], rfl⟩
  | cons rule rules ih =>
    cases hrule : (rule s).outcome with
    | ok value => exact Or.inr ⟨[], rule, rules, [], value, rfl, rfl, hrule⟩
    | error e =>
      rcases ih with ⟨errors, h⟩ | ⟨before, r, after, errors, value, rfl, h, hr⟩
      · exact Or.inl ⟨e :: errors, h.cons hrule⟩
      · exact Or.inr ⟨rule :: before, r, after, e :: errors, value, rfl, h.cons hrule, hr⟩

/-- Alternatives that fail are left behind with their errors.  What comes after
them starts from the same scope. -/
theorem tryVariants_append_of_fails (tracing : Tracing) (tried : List ParseError)
    (h : s.Fails before errors) :
    ∃ attempts, ∀ after : List (Scope → Run α),
      s.tryVariants tracing tried (before ++ after) =
        (s.tryVariants tracing (tried ++ errors) after).after attempts := by
  induction before generalizing tried errors with
  | nil =>
    have herrors : errors = [] := List.map_eq_nil_iff.mp h.symm
    refine ⟨[], fun after => ?_⟩
    rw [herrors, List.append_nil]
    rfl
  | cons rule before ih =>
    obtain ⟨e, rest, rfl, hrule, hbefore⟩ := h.cons_inv
    obtain ⟨attempts, hattempts⟩ := ih (tried ++ [e]) hbefore
    refine ⟨variantAttempts s tracing tried (rule s) ++ attempts, fun after => ?_⟩
    rw [List.cons_append, tryVariants_cons_of_error hrule, hattempts, List.append_assoc]
    simp [Run.after]

/-- Where every alternative fails the scope is untouched, and the error holds
theirs. -/
theorem tryVariants_of_fails (tracing : Tracing) (tried : List ParseError)
    (h : s.Fails rules errors) :
    (s.tryVariants tracing tried rules).outcome =
        .error (.noMatchingVariant s.element (tried ++ errors)) ∧
      (s.tryVariants tracing tried rules).scope = s := by
  obtain ⟨attempts, hattempts⟩ := tryVariants_append_of_fails tracing tried h
  have hrun := hattempts []
  rw [List.append_nil] at hrun
  rw [hrun]
  exact ⟨rfl, rfl⟩

/-- The first alternative that matches gives the value and the scope. -/
theorem tryVariants_of_matches (tracing : Tracing) (tried : List ParseError) {value : α}
    (h : s.Fails before errors) (hrule : (rule s).outcome = .ok value)
    (after : List (Scope → Run α)) :
    (s.tryVariants tracing tried (before ++ rule :: after)).outcome = .ok value ∧
      (s.tryVariants tracing tried (before ++ rule :: after)).scope = (rule s).scope := by
  obtain ⟨attempts, hattempts⟩ := tryVariants_append_of_fails tracing tried h
  rw [hattempts, tryVariants_cons_of_ok hrule]
  exact ⟨rfl, rfl⟩

/-- Alternatives after the first that matches are as good as absent. -/
theorem tryVariants_ignores (tracing : Tracing) (tried : List ParseError) {value : α}
    (h : s.Fails before errors) (hrule : (rule s).outcome = .ok value)
    (after others : List (Scope → Run α)) :
    s.tryVariants tracing tried (before ++ rule :: after) =
      s.tryVariants tracing tried (before ++ rule :: others) := by
  obtain ⟨attempts, hattempts⟩ := tryVariants_append_of_fails tracing tried h
  rw [hattempts, hattempts, tryVariants_cons_of_ok hrule, tryVariants_cons_of_ok hrule]

/-- The errors of earlier alternatives decide neither the value nor the scope. -/
theorem tryVariants_agrees (s : Scope) (tracing : Tracing) (tried tried' : List ParseError)
    (rules : List (Scope → Run α)) :
    (s.tryVariants tracing tried rules).Agrees (s.tryVariants tracing tried' rules) := by
  unfold Run.Agrees
  rcases fails_or_matches s rules with
    ⟨errors, h⟩ | ⟨before, rule, after, errors, value, rfl, h, hrule⟩
  · obtain ⟨ho, hs⟩ := tryVariants_of_fails tracing tried h
    obtain ⟨ho', hs'⟩ := tryVariants_of_fails tracing tried' h
    rw [ho, hs, ho', hs']
    exact ⟨rfl, rfl⟩
  · obtain ⟨ho, hs⟩ := tryVariants_of_matches tracing tried h hrule after
    obtain ⟨ho', hs'⟩ := tryVariants_of_matches tracing tried' h hrule after
    rw [ho, hs, ho', hs']
    exact ⟨rfl, rfl⟩

/-- A choice among the alternatives of a choice ends as if its own alternatives
stood in its place. -/
theorem tryVariants_nested (s : Scope) (tracing : Tracing) (tried : List ParseError)
    (before inner after : List (Scope → Run α)) :
    (s.tryVariants tracing tried
        (before ++ (fun s => s.tryVariants tracing [] inner) :: after)).Agrees
      (s.tryVariants tracing tried (before ++ inner ++ after)) := by
  rcases fails_or_matches s before with
    ⟨errors, h⟩ | ⟨first, rule, rest, errors, value, rfl, h, hrule⟩
  · obtain ⟨attempts, hattempts⟩ := tryVariants_append_of_fails tracing tried h
    rw [List.append_assoc, hattempts, hattempts]
    show (s.tryVariants tracing _ _).Agrees (s.tryVariants tracing _ _)
    rcases fails_or_matches s inner with
      ⟨errors', h'⟩ | ⟨first, rule, rest, errors', value, rfl, h', hrule⟩
    · obtain ⟨attempts', hattempts'⟩ :=
        tryVariants_append_of_fails tracing (tried ++ errors) h'
      rw [hattempts', tryVariants_cons_of_error (tryVariants_of_fails tracing [] h').1]
      exact tryVariants_agrees s tracing _ _ after
    · obtain ⟨hinner, hscope⟩ := tryVariants_of_matches tracing [] h' hrule rest
      obtain ⟨hflat, hscope'⟩ :=
        tryVariants_of_matches tracing (tried ++ errors) h' hrule (rest ++ after)
      rw [tryVariants_cons_of_ok hinner, List.append_assoc, List.cons_append]
      unfold Run.Agrees
      rw [hflat, hscope']
      exact ⟨hscope, rfl⟩
  · simp only [List.append_assoc, List.cons_append]
    obtain ⟨ho, hs⟩ := tryVariants_of_matches tracing tried h hrule
      (rest ++ (fun s => s.tryVariants tracing [] inner) :: after)
    obtain ⟨ho', hs'⟩ := tryVariants_of_matches tracing tried h hrule (rest ++ (inner ++ after))
    unfold Run.Agrees
    rw [ho, hs, ho', hs']
    exact ⟨rfl, rfl⟩

end Scope

namespace Rule

variable {tracing : Tracing} {s : Scope} {rules : List (Rule α)}

/-- Rules that all fail on a scope, with their errors in order. -/
def AllFail (tracing : Tracing) (s : Scope) (rules : List (Rule α))
    (errors : List ParseError) : Prop :=
  rules.map (fun rule => (rule.eval tracing s).outcome) = errors.map .error

theorem AllFail.fails {errors : List ParseError} (h : AllFail tracing s rules errors) :
    s.Fails (rules.map fun rule => rule.eval tracing) errors := by
  unfold Scope.Fails
  rw [List.map_map]
  exact h

/-- A choice is a transaction.

* The first rule to match decides the value and the scope, exactly as it does
  alone, and the rules after it might be any others.
* Where no rule matches the scope stays as it is, with every error of every
  child, and the error holds those of the rules in order.
* A choice in the place of its own rules changes neither the value nor the scope,
  and where all fail it only puts their errors together. -/
theorem oneOf_transaction (tracing : Tracing) (s : Scope) (rules : List (Rule α)) :
    (∀ before rule after value, rules = before ++ rule :: after →
        (∀ r ∈ before, ∃ e, (r.eval tracing s).outcome = .error e) →
        (rule.eval tracing s).outcome = .ok value →
        ((oneOf rules).eval tracing s).outcome = .ok value ∧
          ((oneOf rules).eval tracing s).scope = (rule.eval tracing s).scope ∧
          ∀ others, (oneOf (before ++ rule :: others)).eval tracing s =
            (oneOf rules).eval tracing s) ∧
      (∀ errors, AllFail tracing s rules errors →
        ((oneOf rules).eval tracing s).outcome =
            .error (.noMatchingVariant s.element errors) ∧
          ((oneOf rules).eval tracing s).scope = s) ∧
      ∀ before inner after, rules = before ++ inner ++ after →
        ((oneOf (before ++ oneOf inner :: after)).eval tracing s).scope =
            ((oneOf rules).eval tracing s).scope ∧
          ((oneOf (before ++ oneOf inner :: after)).eval tracing s).outcome.toOption =
            ((oneOf rules).eval tracing s).outcome.toOption ∧
          ∀ errors errors' errors'', AllFail tracing s before errors →
            AllFail tracing s inner errors' → AllFail tracing s after errors'' →
            ((oneOf (before ++ oneOf inner :: after)).eval tracing s).outcome =
              .error (.noMatchingVariant s.element
                (errors ++ .noMatchingVariant s.element errors' :: errors'')) := by
  refine ⟨?_, ?_, ?_⟩
  · intro before rule after value hrules hbefore hrule
    subst hrules
    have hall : ∀ r ∈ before.map fun r => r.eval tracing, ∃ e, (r s).outcome = .error e := by
      simpa using hbefore
    obtain ⟨errors, h⟩ := Scope.fails_of_forall hall
    simp only [eval_oneOf, List.map_append, List.map_cons]
    obtain ⟨ho, hs⟩ := Scope.tryVariants_of_matches tracing [] h hrule _
    exact ⟨ho, hs, fun others => Scope.tryVariants_ignores tracing [] h hrule _ _⟩
  · intro errors h
    rw [eval_oneOf]
    exact Scope.tryVariants_of_fails tracing [] h.fails
  · intro before inner after hrules
    subst hrules
    have hinner : (oneOf inner).eval tracing =
        fun s => s.tryVariants tracing [] (inner.map fun r => r.eval tracing) :=
      funext fun s => eval_oneOf tracing inner s
    simp only [eval_oneOf, List.map_append, List.map_cons, hinner]
    obtain ⟨hs, ho⟩ := Scope.tryVariants_nested s tracing [] (before.map fun r => r.eval tracing)
      (inner.map fun r => r.eval tracing) (after.map fun r => r.eval tracing)
    refine ⟨hs, ho, ?_⟩
    intro errors errors' errors'' h h' h''
    have hchoice := (Scope.tryVariants_of_fails tracing [] h'.fails).1
    exact (Scope.tryVariants_of_fails tracing [] (h.fails.append (h''.fails.cons hchoice))).1

/-- A scope with an attribute left and a child on which an attempt has failed. -/
def partlyRead : Scope :=
  ⟨⟨"shape", [⟨"j", "0"⟩, ⟨"k", "1"⟩], [⟨"note", [], [], none⟩], none⟩, [⟨"k", "1"⟩],
    [⟨⟨"note", [], [], none⟩, [.other "old"]⟩], none⟩

/-- Takes an attribute and adds an error to the children before it fails. -/
def spoilingRule : Rule (Option String) :=
  .bind (.takeAttr "k") fun _ => .bind (.childrenOpt (.fail "new" : Rule Unit)) fun _ =>
    .fail "no"

/-- What a rule spoils before it fails is there again for the next one, and after
the last one. -/
theorem oneOf_transaction_spoiled :
    (((oneOf [spoilingRule, .takeAttr "k", .fail "never"]).eval .silent partlyRead).outcome =
          .ok (some "1") ∧
        ((oneOf [spoilingRule, .takeAttr "k", .fail "never"]).eval .silent partlyRead).scope =
          { partlyRead with attrs := [] }) ∧
      (spoilingRule.eval .silent partlyRead).scope ≠ partlyRead ∧
      ((oneOf [spoilingRule, spoilingRule]).eval .silent partlyRead).scope = partlyRead := by
  have hspoiled : (spoilingRule.eval .silent partlyRead).outcome = .error (.other "no") := rfl
  obtain ⟨ho, hs, _⟩ := (oneOf_transaction .silent partlyRead
    [spoilingRule, .takeAttr "k", .fail "never"]).1 [spoilingRule] (.takeAttr "k")
    [.fail "never"] (some "1") rfl (by simp [hspoiled]) rfl
  have hall : AllFail .silent partlyRead [spoilingRule, spoilingRule]
      [.other "no", .other "no"] := rfl
  obtain ⟨_, hrollback⟩ := (oneOf_transaction .silent partlyRead
    [spoilingRule, spoilingRule]).2.1 [.other "no", .other "no"] hall
  have hne : (spoilingRule.eval .silent partlyRead).scope.attrs ≠ partlyRead.attrs := by
    decide
  exact ⟨⟨ho, hs⟩, fun h => hne (congrArg Scope.attrs h), hrollback⟩

end Rule

end ElementGrammar
