import ElementGrammar.Proofs.Rule.Quota

/-!
# Children that have to be there

`Rule.child` and `Rule.children` ask for children that match, and fail where there are none.
The error is put together afterwards, from the last error of each child that is left, and a
child without an error would be passed over.  It is complete because a scan that finds nothing
has tried every child.

There are three groups.

* Children on which an attempt fails.  `Slot.Refused` is what becomes of such a child, and
  `Slot.first_match_cases` splits children at the first that matches.
* Scans of these.  Children that do not match only have an error added, whatever comes after
  them: `Slot.forall₂_refused_settle` and `Slot.settle_append_of_noneMatches`.
* The rules.  `Rule.outcome_child`, `Rule.outcome_children` and their scopes say what the two
  rules do in terms of a scan; `Scope.Missed`, `Scope.FirstTaken` and `Scope.AllTaken` are the
  ways in which they end.
-/

namespace ElementGrammar

variable {α : Type}

/-! ## Children on which an attempt fails -/

namespace Slot

-- `verdict` is what a rule says of an element on its own.
variable (verdict : Element → Except ParseError α)

/-- The child stays, with the error of one attempt on it added to those that it had. -/
def Refused (slot slot' : Slot ParseError) : Prop :=
  ∃ e, verdict slot.element = .error e ∧ slot' = slot.withError e

/-- The child is named with the error of the attempt on it. -/
def Accused (slot : Slot ParseError) (blame : Blame ParseError) : Prop :=
  blame.child = slot.element ∧ verdict slot.element = .error blame.error

/-- No child matches. -/
def NoneMatches (slots : List (Slot ParseError)) : Prop :=
  ∀ slot ∈ slots, ∃ e, verdict slot.element = .error e

/-- The children that do not match. -/
def failing (slots : List (Slot ParseError)) : List (Slot ParseError) :=
  slots.filter fun slot => !(verdict slot.element).isOk

variable {verdict} {slot : Slot ParseError} {slots slots' : List (Slot ParseError)}

theorem Accused.eq_of_error {blame : Blame ParseError} {e : ParseError}
    (h : slot.Accused verdict blame) (he : verdict slot.element = .error e) :
    blame = ⟨slot.element, e⟩ := by
  obtain ⟨hchild, herror⟩ := h
  rw [he] at herror
  cases blame
  cases hchild
  cases herror
  rfl

/-- Where a child matches there is a first one, and none before it does. -/
theorem first_match_cases (verdict : Element → Except ParseError α)
    (slots : List (Slot ParseError)) :
    NoneMatches verdict slots ∨
      ∃ before slot after value, slots = before ++ slot :: after ∧
        NoneMatches verdict before ∧ verdict slot.element = .ok value := by
  induction slots with
  | nil => exact Or.inl fun _ h => absurd h List.not_mem_nil
  | cons slot slots ih =>
    cases h : verdict slot.element with
    | ok value =>
      have hbefore : NoneMatches verdict [] := fun _ h => absurd h List.not_mem_nil
      exact Or.inr ⟨[], slot, slots, value, rfl, hbefore, h⟩
    | error e =>
      rcases ih with hnone | ⟨before, first, after, value, rfl, hbefore, hfirst⟩
      · exact Or.inl (List.forall_mem_cons.mpr ⟨⟨e, h⟩, hnone⟩)
      · have hbefore' : NoneMatches verdict (slot :: before) :=
          List.forall_mem_cons.mpr ⟨⟨e, h⟩, hbefore⟩
        exact Or.inr ⟨slot :: before, first, after, value, rfl, hbefore', hfirst⟩

theorem failing_cons_of_ok {value : α} (h : verdict slot.element = .ok value) :
    failing verdict (slot :: slots) = failing verdict slots := by
  have hok : (verdict slot.element).isOk = true := by
    rw [h]
    rfl
  rw [failing, List.filter_cons_of_neg (by simp [hok]), failing]

theorem failing_cons_of_error {e : ParseError} (h : verdict slot.element = .error e) :
    failing verdict (slot :: slots) = slot :: failing verdict slots := by
  have hok : (verdict slot.element).isOk = false := by
    rw [h]
    rfl
  rw [failing, List.filter_cons_of_pos (by simp [hok]), failing]

/-! ## Scans of these -/

/-- Of children that do not match every one is tried. -/
theorem forall₂_refused_settle (h : NoneMatches verdict slots) {quota : Nat}
    (hquota : 0 < quota) : List.Forall₂ (Refused verdict) slots (settle verdict quota slots) := by
  obtain ⟨quota, rfl⟩ := Nat.exists_eq_add_one.mpr hquota
  induction slots with
  | nil => exact .nil
  | cons slot slots ih =>
    obtain ⟨⟨e, he⟩, hrest⟩ := List.forall_mem_cons.mp h
    rw [settle_cons_of_error he]
    exact .cons ⟨e, he, rfl⟩ (ih hrest)

theorem firstValues_append_of_noneMatches (h : NoneMatches verdict slots) (quota : Nat)
    (rest : List (Slot ParseError)) :
    firstValues verdict quota (slots ++ rest) = firstValues verdict quota rest := by
  induction slots with
  | nil => rfl
  | cons slot slots ih =>
    obtain ⟨⟨e, he⟩, hrest⟩ := List.forall_mem_cons.mp h
    rw [List.cons_append, firstValues_cons_of_error he]
    exact ih hrest

/-- Children that do not match leave the quota to those after them. -/
theorem settle_append_of_noneMatches (h : NoneMatches verdict slots) {quota : Nat}
    (hquota : 0 < quota) (rest : List (Slot ParseError)) :
    settle verdict quota (slots ++ rest) =
      settle verdict quota slots ++ settle verdict quota rest := by
  obtain ⟨quota, rfl⟩ := Nat.exists_eq_add_one.mpr hquota
  induction slots with
  | nil => rfl
  | cons slot slots ih =>
    obtain ⟨⟨e, he⟩, hrest⟩ := List.forall_mem_cons.mp h
    rw [List.cons_append, settle_cons_of_error he, settle_cons_of_error he, ih hrest]
    rfl

theorem firstValues_of_noneMatches (h : NoneMatches verdict slots) (quota : Nat) :
    firstValues verdict quota slots = [] := by
  have happend := firstValues_append_of_noneMatches h quota []
  rw [List.append_nil] at happend
  rw [happend]
  exact List.take_nil

/-- A scan has no value where no child matches. -/
theorem firstValues_eq_nil_iff (verdict : Element → Except ParseError α)
    (slots : List (Slot ParseError)) {quota : Nat} (hquota : 0 < quota) :
    firstValues verdict quota slots = [] ↔ NoneMatches verdict slots := by
  obtain ⟨quota, rfl⟩ := Nat.exists_eq_add_one.mpr hquota
  rcases first_match_cases verdict slots with
    hnone | ⟨before, slot, after, value, rfl, hbefore, hslot⟩
  · exact iff_of_true (firstValues_of_noneMatches hnone _) hnone
  · rw [firstValues_append_of_noneMatches hbefore, firstValues_cons_of_ok hslot]
    refine iff_of_false (List.cons_ne_nil _ _) ?_
    intro hnone
    obtain ⟨e, he⟩ := hnone slot (List.mem_append_right before List.mem_cons_self)
    rw [hslot] at he
    contradiction

/-- A quota that is no bound tries every child. -/
theorem settle_of_length_le (verdict : Element → Except ParseError α) {quota : Nat}
    (h : slots.length ≤ quota) :
    firstValues verdict quota slots =
        slots.filterMap (fun slot => (verdict slot.element).toOption) ∧
      List.Forall₂ (Refused verdict) (failing verdict slots) (settle verdict quota slots) := by
  constructor
  · apply List.take_of_length_le
    exact Nat.le_trans (List.length_filterMap_le _ _) h
  · induction quota, slots using scan_induction verdict with
    | zero slots =>
      have hnil : slots = [] := List.length_eq_zero_iff.mp (Nat.le_zero.mp h)
      rw [hnil]
      exact .nil
    | nil quota => exact .nil
    | ok quota slot slots value hslot ih =>
      rw [failing_cons_of_ok hslot, settle_cons_of_ok hslot]
      exact ih (Nat.le_of_succ_le_succ h)
    | error quota slot slots e hslot ih =>
      rw [failing_cons_of_error hslot, settle_cons_of_error hslot]
      exact .cons ⟨e, hslot, rfl⟩ (ih (Nat.le_of_succ_le h))

end Slot

/-! ## The rules -/

namespace Scope

variable (verdict : Element → Except ParseError α) (s : Scope)

/-- The rule fails.  The error names every child, each with the error of the attempt on it, and
each child has this one error added.  The rest of the scope is as it was. -/
structure Missed (error : ParseError) (s' : Scope) : Prop where
  error : ∃ tried, error = .noMatchingChild s.element tried ∧
    List.Forall₂ (Slot.Accused verdict) s.children tried
  scope : ∃ slots, s' = { s with children := slots } ∧
    List.Forall₂ (Slot.Refused verdict) s.children slots

/-- The value is that of the first child that matches.  This child is gone, those before it
have the error of the attempt on them, and those after it are as they were. -/
def FirstTaken (value : α) (s' : Scope) : Prop :=
  ∃ before slot after refused, s.children = before ++ slot :: after ∧
    verdict slot.element = .ok value ∧ List.Forall₂ (Slot.Refused verdict) before refused ∧
    s' = { s with children := refused ++ after }

/-- The values are those of all children that match, in order.  These are gone, and the others
have the error of the attempt on them. -/
def AllTaken (values : List α) (s' : Scope) : Prop :=
  values = s.children.filterMap (fun slot => (verdict slot.element).toOption) ∧
    ∃ refused, s' = { s with children := refused } ∧
      List.Forall₂ (Slot.Refused verdict) (Slot.failing verdict s.children) refused

/-- A run that has to find a child fails where none matches, and then blames every child.
Otherwise it has a value and leaves a scope as `Taken` says. -/
structure Requires {β : Type} (Taken : β → Scope → Prop) (r : Run β) : Prop where
  fails_iff : (∃ error, r.outcome = .error error) ↔ Slot.NoneMatches verdict s.children
  missed : ∀ error, r.outcome = .error error → s.Missed verdict error r.scope
  taken : ∀ value, r.outcome = .ok value → Taken value r.scope

variable {verdict s} {s' : Scope}

/-- After attempts that failed the last errors are those of the attempts. -/
theorem forall₂_accused_lastErrors
    (h : List.Forall₂ (Slot.Refused verdict) s.children s'.children) :
    List.Forall₂ (Slot.Accused verdict) s.children s'.lastErrors := by
  unfold lastErrors
  generalize s.children = slots at h
  generalize s'.children = refused at h
  induction h with
  | nil => exact .nil
  | @cons slot _ _ _ hslot _ ih =>
    obtain ⟨e, he, rfl⟩ := hslot
    have hlast : (slot.withError e).errors.getLast? = some e := List.getLast?_concat
    rw [List.filterMap_cons, hlast]
    exact .cons ⟨rfl, he⟩ ih

/-- A scan without a match, up to a quota that lets it begin, ends in the error that names
every child. -/
theorem missed_of_noneMatches (h : Slot.NoneMatches verdict s.children) {quota : Nat}
    (hquota : 0 < quota)
    (hscope : s' = { s with children := Slot.settle verdict quota s.children }) :
    s.Missed verdict s'.missingChild s' := by
  subst hscope
  have hrefused := Slot.forall₂_refused_settle h hquota
  exact ⟨⟨_, rfl, forall₂_accused_lastErrors hrefused⟩, ⟨_, rfl, hrefused⟩⟩

theorem Requires.of_noneMatches {β : Type} {Taken : β → Scope → Prop} {r : Run β}
    {error : ParseError} (h : Slot.NoneMatches verdict s.children)
    (houtcome : r.outcome = .error error) (hmissed : s.Missed verdict error r.scope) :
    s.Requires verdict Taken r where
  fails_iff := ⟨fun _ => h, fun _ => ⟨error, houtcome⟩⟩
  missed error' herror := by
    rw [houtcome] at herror
    cases herror
    exact hmissed
  taken value hvalue := by
    rw [houtcome] at hvalue
    contradiction

theorem Requires.of_matches {β : Type} {Taken : β → Scope → Prop} {r : Run β} {value : β}
    (h : ¬ Slot.NoneMatches verdict s.children) (houtcome : r.outcome = .ok value)
    (htaken : Taken value r.scope) : s.Requires verdict Taken r where
  fails_iff := by
    rw [houtcome]
    exact ⟨fun ⟨_, herror⟩ => (by contradiction), fun hnone => absurd hnone h⟩
  missed error herror := by
    rw [houtcome] at herror
    contradiction
  taken value' hvalue := by
    rw [houtcome] at hvalue
    cases hvalue
    exact htaken

end Scope

namespace Rule

theorem unlimited_pos : 0 < unlimited := by
  decide

variable (tracing : Tracing) (rule : Rule α) (s : Scope)

theorem outcome_child :
    ((child rule).eval tracing s).outcome =
      match (Slot.firstValues (rule.verdict tracing) 1 s.children).head? with
      | none => .error ((child rule).eval tracing s).scope.missingChild
      | some value => .ok value := by
  unfold child
  rw [eval_bind, Run.andThen_of_ok (outcome_childOpt tracing rule s)]
  cases (Slot.firstValues (rule.verdict tracing) 1 s.children).head? <;> rfl

theorem scope_child :
    ((child rule).eval tracing s).scope =
      { s with children := Slot.settle (rule.verdict tracing) 1 s.children } := by
  unfold child
  rw [eval_bind, Run.andThen_of_ok (outcome_childOpt tracing rule s), ← scope_childOpt]
  cases (Slot.firstValues (rule.verdict tracing) 1 s.children).head? <;> rfl

theorem outcome_children :
    ((children rule).eval tracing s).outcome =
      match Slot.firstValues (rule.verdict tracing) unlimited s.children with
      | [] => .error ((children rule).eval tracing s).scope.missingChild
      | values => .ok values := by
  unfold children childrenOpt
  rw [eval_bind, Run.andThen_of_ok (outcome_childrenAtMost tracing unlimited rule s)]
  cases Slot.firstValues (rule.verdict tracing) unlimited s.children <;> rfl

theorem scope_children :
    ((children rule).eval tracing s).scope =
      { s with children := Slot.settle (rule.verdict tracing) unlimited s.children } := by
  unfold children childrenOpt
  rw [eval_bind, Run.andThen_of_ok (outcome_childrenAtMost tracing unlimited rule s),
    ← scope_childrenAtMost]
  cases Slot.firstValues (rule.verdict tracing) unlimited s.children <;> rfl

variable {s}

theorem requires_child :
    s.Requires (rule.verdict tracing) (s.FirstTaken (rule.verdict tracing))
      ((child rule).eval tracing s) := by
  have houtcome := outcome_child tracing rule s
  have hscope := scope_child tracing rule s
  have hnil := Slot.firstValues_eq_nil_iff (rule.verdict tracing) s.children Nat.one_pos
  rcases Slot.first_match_cases (rule.verdict tracing) s.children with
    hnone | ⟨before, slot, after, value, hchildren, hbefore, hslot⟩
  · rw [hnil.mpr hnone] at houtcome
    exact .of_noneMatches hnone houtcome (Scope.missed_of_noneMatches hnone Nat.one_pos hscope)
  · have hvalues : Slot.firstValues (rule.verdict tracing) 1 s.children = [value] := by
      rw [hchildren, Slot.firstValues_append_of_noneMatches hbefore,
        Slot.firstValues_cons_of_ok hslot]
      rfl
    have hmatch : ¬ Slot.NoneMatches (rule.verdict tracing) s.children := by
      rw [← hnil, hvalues]
      exact List.cons_ne_nil _ _
    rw [hvalues] at houtcome
    rw [hchildren, Slot.settle_append_of_noneMatches hbefore Nat.one_pos,
      Slot.settle_cons_of_ok hslot, Slot.settle_zero] at hscope
    have hrefused := Slot.forall₂_refused_settle hbefore Nat.one_pos
    exact .of_matches hmatch houtcome ⟨before, slot, after, _, hchildren, hslot, hrefused, hscope⟩

theorem requires_children (hlength : s.children.length < unlimited) :
    s.Requires (rule.verdict tracing) (s.AllTaken (rule.verdict tracing))
      ((children rule).eval tracing s) := by
  have houtcome := outcome_children tracing rule s
  have hscope := scope_children tracing rule s
  have hnil := Slot.firstValues_eq_nil_iff (rule.verdict tracing) s.children unlimited_pos
  cases hfound : Slot.firstValues (rule.verdict tracing) unlimited s.children with
  | nil =>
    have hnone := hnil.mp hfound
    rw [hfound] at houtcome
    exact .of_noneMatches hnone houtcome (Scope.missed_of_noneMatches hnone unlimited_pos hscope)
  | cons value values =>
    have hmatch : ¬ Slot.NoneMatches (rule.verdict tracing) s.children := by
      rw [← hnil, hfound]
      exact List.cons_ne_nil _ _
    obtain ⟨hvalues, hrefused⟩ :=
      Slot.settle_of_length_le (rule.verdict tracing) (Nat.le_of_lt hlength)
    rw [hfound] at houtcome hvalues
    exact .of_matches hmatch houtcome ⟨hvalues, _, hscope, hrefused⟩

/-- A rule that has to find a child fails where no child that is left matches, and then blames
every one of them for this attempt.  A rule for one child takes the first that matches, and a
rule for several takes all, of which there are not too many for it. -/
theorem required_children_blamed (hlength : s.children.length < unlimited) :
    s.Requires (rule.verdict tracing) (s.FirstTaken (rule.verdict tracing))
        ((child rule).eval tracing s) ∧
      s.Requires (rule.verdict tracing) (s.AllTaken (rule.verdict tracing))
        ((children rule).eval tracing s) :=
  ⟨requires_child tracing rule, requires_children tracing rule hlength⟩

/-- A scope with two notes, one of which has an error already. -/
def notes : Scope :=
  ⟨⟨"register", [], [], none⟩, [],
    [⟨⟨"note", [], [], none⟩, [.other "old"]⟩, ⟨⟨"note", [], [], none⟩, []⟩], none⟩

/-- Where an entry is asked for both notes are blamed for being none, and the old error is not
given again. -/
theorem required_children_blamed_notes :
    notes.children.length < unlimited ∧
      ((children entryNumber).eval .silent notes).outcome =
        .error (.noMatchingChild ⟨"register", [], [], none⟩
          [⟨⟨"note", [], [], none⟩, .other "Element name is not entry"⟩,
            ⟨⟨"note", [], [], none⟩, .other "Element name is not entry"⟩]) := by
  have hlength : notes.children.length < unlimited := by decide
  obtain ⟨_, hchildren⟩ := required_children_blamed .silent entryNumber hlength
  have hnone : Slot.NoneMatches (entryNumber.verdict .silent) notes.children := by
    intro slot hslot
    rcases List.mem_pair.mp hslot with rfl | rfl <;> exact ⟨_, rfl⟩
  obtain ⟨error, herror⟩ := hchildren.fails_iff.mpr hnone
  obtain ⟨tried, rfl, htried⟩ := (hchildren.missed error herror).error
  refine ⟨hlength, ?_⟩
  rw [herror]
  cases htried with
  | cons hfirst hrest =>
    cases hrest with
    | cons hsecond hnil =>
      cases hnil
      rw [hfirst.eq_of_error rfl, hsecond.eq_of_error rfl]
      rfl

end Rule

end ElementGrammar
