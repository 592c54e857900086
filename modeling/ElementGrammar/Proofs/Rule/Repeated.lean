import ElementGrammar.Proofs.Rule.Blame
import ElementGrammar.Proofs.Rule.Read
import ElementGrammar.Proofs.Rule.Required

/-!
# One rule on children several times

A rule on children that is run again tries once more the children that it left, which fail as
before, and then comes to those that its quota kept it from.  So quotas add up.

There are three groups.

* Scans after scans.  `Slot.firstValues_add` and `Slot.elements_settle_add` compare two scans
  in sequence with one scan, by induction along the first of the two.
* Children that have been tried.  `Scope.Exhausted` is that a rule on all children finds none
  and only repeats the errors that they have; `Scope.exhausted_of_blamed` is when this is so.
* One child at a time.  `Rule.oneByOne` repeats a rule for one child until there is none, and
  `Rule.oneByOne_eq` is that it gives the values of a single scan, by induction on the rounds:
  every round but the last takes one of the children.

`Rule.quotas_add_up` puts these together for a rule on the children of a scope.
-/

namespace ElementGrammar

variable {α : Type}

/-! ## Scans after scans -/

namespace Slot

variable {verdict : Element → Except ParseError α} {slot : Slot ParseError}
variable {slots : List (Slot ParseError)}

/-- A child that does not match stays, whether or not it is tried. -/
theorem elements_settle_cons_of_error {e : ParseError} (h : verdict slot.element = .error e)
    (quota : Nat) :
    (settle verdict quota (slot :: slots)).map (·.element) =
      slot.element :: (settle verdict quota slots).map (·.element) := by
  cases quota with
  | zero => rw [settle_zero, settle_zero, List.map_cons]
  | succ quota =>
    rw [settle_cons_of_error h, List.map_cons]
    rfl

theorem elements_settle_of_noneMatches (h : NoneMatches verdict slots) (quota : Nat) :
    (settle verdict quota slots).map (·.element) = slots.map (·.element) := by
  induction slots with
  | nil => cases quota <;> rfl
  | cons slot slots ih =>
    obtain ⟨⟨e, he⟩, hrest⟩ := List.forall_mem_cons.mp h
    rw [elements_settle_cons_of_error he, ih hrest, List.map_cons]

theorem firstValues_add (n m : Nat) (slots : List (Slot ParseError)) :
    firstValues verdict (n + m) slots =
      firstValues verdict n slots ++ firstValues verdict m (settle verdict n slots) := by
  induction n, slots using scan_induction verdict with
  | zero slots =>
    rw [Nat.zero_add, settle_zero]
    rfl
  | nil n => cases m <;> rfl
  | ok n slot slots value h ih =>
    rw [Nat.succ_add, firstValues_cons_of_ok h, firstValues_cons_of_ok h, settle_cons_of_ok h, ih,
      List.cons_append]
  | error n slot slots e h ih =>
    have hagain : verdict (slot.withError e).element = .error e := h
    rw [firstValues_cons_of_error h, firstValues_cons_of_error h, settle_cons_of_error h,
      firstValues_cons_of_error hagain, ih]

theorem elements_settle_add (n m : Nat) (slots : List (Slot ParseError)) :
    (settle verdict m (settle verdict n slots)).map (·.element) =
      (settle verdict (n + m) slots).map (·.element) := by
  induction n, slots using scan_induction verdict with
  | zero slots => rw [settle_zero, Nat.zero_add]
  | nil n => cases m <;> rfl
  | ok n slot slots value h ih => rw [Nat.succ_add, settle_cons_of_ok h, settle_cons_of_ok h, ih]
  | error n slot slots e h ih =>
    have hagain : verdict (slot.withError e).element = .error e := h
    rw [settle_cons_of_error h, elements_settle_cons_of_error hagain,
      elements_settle_cons_of_error h, ih]
    rfl

/-- Up to a quota of one there is at most one value. -/
theorem firstValues_one (verdict : Element → Except ParseError α)
    (slots : List (Slot ParseError)) :
    firstValues verdict 1 slots = (firstValues verdict 1 slots).head?.toList := by
  rw [← List.take_one, firstValues, List.take_take, Nat.min_self]

end Slot

/-! ## Children that have been tried -/

namespace Scope

/-- A rule on all children finds none, and each child has its last error once more. -/
def Exhausted (tracing : Tracing) (rule : Rule α) (s : Scope) : Prop :=
  ((Rule.childrenOpt rule).eval tracing s).outcome = .ok [] ∧
    ∃ slots, ((Rule.childrenOpt rule).eval tracing s).scope = { s with children := slots } ∧
      List.Forall₂
        (fun slot slot' => ∃ e, slot.errors.getLast? = some e ∧ slot' = slot.withError e)
        s.children slots

variable {tracing : Tracing} {rule : Rule α}

/-- A child on which the attempt failed is blamed for it. -/
theorem blamed_of_refused {slots slots' : List (Slot ParseError)}
    (h : List.Forall₂ (Slot.Refused (rule.verdict tracing)) slots slots') :
    ∀ slot ∈ slots', slot.BlamedBy (rule.run tracing) := by
  induction h with
  | nil => exact fun _ h => absurd h List.not_mem_nil
  | cons hslot _ ih =>
    obtain ⟨e, he, rfl⟩ := hslot
    exact List.forall_mem_cons.mpr ⟨⟨e, he, List.getLast?_concat⟩, ih⟩

theorem exhausted_of_blamed {s : Scope}
    (h : ∀ slot ∈ s.children, slot.BlamedBy (rule.run tracing)) : s.Exhausted tracing rule := by
  have hnone : Slot.NoneMatches (rule.verdict tracing) s.children := by
    intro slot hslot
    obtain ⟨e, he, _⟩ := h slot hslot
    exact ⟨e, he⟩
  refine ⟨?_, _, Rule.scope_childrenAtMost tracing Rule.unlimited rule s, ?_⟩
  · rw [← Slot.firstValues_of_noneMatches hnone Rule.unlimited]
    exact Rule.outcome_childrenAtMost tracing Rule.unlimited rule s
  · have hrefused := Slot.forall₂_refused_settle hnone Rule.unlimited_pos
    have hboth := (List.forall₂_and_left _ _).mpr ⟨h, hrefused⟩
    apply hboth.imp
    intro slot slot' hslot
    obtain ⟨⟨e, he, hlast⟩, e', he', rfl⟩ := hslot
    have hsame : e' = e := Except.error.inj (he'.symm.trans he)
    exact ⟨e, hlast, congrArg slot.withError hsame⟩

/-- A scan that reaches every child leaves none for the next one. -/
theorem exhausted_childrenOpt {s : Scope} (h : s.children.length ≤ Rule.unlimited) :
    ((Rule.childrenOpt rule).eval tracing s).scope.Exhausted tracing rule :=
  exhausted_of_blamed (scan_kept_blamed tracing s.element h)

end Scope

/-! ## One child at a time -/

namespace Rule

variable (tracing : Tracing) (rule : Rule α)

/-- A round that has a value takes a child. -/
theorem length_childOpt_lt {s : Scope} {value : α}
    (h : ((childOpt rule).eval tracing s).outcome = .ok (some value)) :
    ((childOpt rule).eval tracing s).scope.children.length < s.children.length := by
  rw [outcome_childOpt, Except.ok.injEq, List.head?_eq_some_iff] at h
  obtain ⟨rest, h⟩ := h
  have hall : (Slot.firstValues (rule.verdict tracing) 1 s.children).length +
      (Slot.settle (rule.verdict tracing) 1 s.children).length = s.children.length :=
    Slot.length_firstValues_add_length_settle
  rw [h, List.length_cons] at hall
  rw [scope_childOpt]
  show (Slot.settle (rule.verdict tracing) 1 s.children).length < s.children.length
  omega

/-- Takes the first child that matches, again and again, until there is none. -/
def oneByOne (s : Scope) : List α × Scope :=
  match _h : ((childOpt rule).eval tracing s).outcome with
  | .ok (some value) =>
    let rest := oneByOne ((childOpt rule).eval tracing s).scope
    (value :: rest.1, rest.2)
  | _ => ([], ((childOpt rule).eval tracing s).scope)
termination_by s.children.length
decreasing_by exact length_childOpt_lt tracing rule _h

variable {tracing rule} {s : Scope}

theorem oneByOne_of_some {value : α}
    (h : ((childOpt rule).eval tracing s).outcome = .ok (some value)) :
    oneByOne tracing rule s =
      (value :: (oneByOne tracing rule ((childOpt rule).eval tracing s).scope).1,
        (oneByOne tracing rule ((childOpt rule).eval tracing s).scope).2) := by
  rw [oneByOne]
  split
  · rename_i value' h'
    rw [h] at h'
    cases h'
    rfl
  · rename_i hnot
    exact absurd h (hnot value)

theorem oneByOne_of_none (h : ((childOpt rule).eval tracing s).outcome = .ok none) :
    oneByOne tracing rule s = ([], ((childOpt rule).eval tracing s).scope) := by
  rw [oneByOne]
  split
  · rename_i value h'
    rw [h] at h'
    cases h'
  · rfl

/-- What one scan would take and leave is taken and left one by one, and each child that is
left has been tried in the last round. -/
theorem oneByOne_eq (tracing : Tracing) (rule : Rule α) {quota : Nat}
    (hquota : s.children.length ≤ quota) :
    (oneByOne tracing rule s).1 = Slot.firstValues (rule.verdict tracing) quota s.children ∧
      (oneByOne tracing rule s).2.rest =
        ((childrenAtMost quota rule).eval tracing s).scope.rest ∧
      ∀ slot ∈ (oneByOne tracing rule s).2.children, slot.BlamedBy (rule.run tracing) := by
  induction s using oneByOne.induct tracing rule generalizing quota with
  | case1 s value hround ih =>
    have hless := length_childOpt_lt tracing rule hround
    -- A quota that lets every child be tried is one for this round and one for the others.
    obtain ⟨more, rfl⟩ : ∃ more, quota = 1 + more := ⟨quota - 1, by omega⟩
    have hmore : ((childOpt rule).eval tracing s).scope.children.length ≤ more := by omega
    obtain ⟨hvalues, hrest, hblamed⟩ := ih hmore
    have hone := Slot.firstValues_one (rule.verdict tracing) s.children
    rw [Except.ok.inj ((outcome_childOpt tracing rule s).symm.trans hround)] at hone
    rw [scope_childOpt] at hvalues hrest hblamed
    rw [oneByOne_of_some hround, scope_childOpt, Slot.firstValues_add, hone, hvalues, hrest,
      scope_childrenAtMost, scope_childrenAtMost]
    refine ⟨rfl, ?_, hblamed⟩
    simp only [Scope.rest, Slot.elements_settle_add]
  | case2 s hnot =>
    have hround := outcome_childOpt tracing rule s
    have hone := Slot.firstValues_one (rule.verdict tracing) s.children
    cases hfirst : (Slot.firstValues (rule.verdict tracing) 1 s.children).head? with
    | some value =>
      rw [hfirst] at hround
      exact absurd hround (hnot value)
    | none =>
      rw [hfirst] at hround hone
      have hnone := (Slot.firstValues_eq_nil_iff _ _ Nat.one_pos).mp hone
      have hrefused := Slot.forall₂_refused_settle hnone Nat.one_pos
      rw [oneByOne_of_none hround, Slot.firstValues_of_noneMatches hnone, scope_childrenAtMost,
        scope_childOpt]
      refine ⟨rfl, ?_, Scope.blamed_of_refused hrefused⟩
      simp only [Scope.rest, Slot.elements_settle_of_noneMatches hnone]

/-- Runs of a rule up to two quotas, one after the other, take what a run up to their sum
takes, and leave the same.  So repeating a rule for one child, until there is none, does what
the rule on all children does, of which there are not too many for it.  After either the rule
on all children finds none, and each child only has its last error once more. -/
theorem quotas_add_up (tracing : Tracing) (rule : Rule α) (s : Scope) :
    (∀ n m, ∃ first second,
      let again := (childrenAtMost m rule).eval tracing
        ((childrenAtMost n rule).eval tracing s).scope
      let once := (childrenAtMost (n + m) rule).eval tracing s
      ((childrenAtMost n rule).eval tracing s).outcome = .ok first ∧
        again.outcome = .ok second ∧ once.outcome = .ok (first ++ second) ∧
        again.scope.rest = once.scope.rest) ∧
      (s.children.length < unlimited →
        let all := (childrenOpt rule).eval tracing s
        let each := oneByOne tracing rule s
        all.outcome = .ok each.1 ∧ each.2.rest = all.scope.rest ∧
          all.scope.Exhausted tracing rule ∧ each.2.Exhausted tracing rule) := by
  constructor
  · intro n m
    refine ⟨_, _, outcome_childrenAtMost .., outcome_childrenAtMost .., ?_, ?_⟩
    · rw [outcome_childrenAtMost, Slot.firstValues_add, scope_childrenAtMost]
    · simp only [scope_childrenAtMost, Scope.rest, Slot.elements_settle_add]
  · intro hlength all each
    obtain ⟨hvalues, hrest, hblamed⟩ :=
      oneByOne_eq tracing rule (Nat.le_of_lt hlength)
    refine ⟨?_, hrest, Scope.exhausted_childrenOpt (Nat.le_of_lt hlength),
      Scope.exhausted_of_blamed hblamed⟩
    rw [hvalues]
    exact outcome_childrenAtMost tracing unlimited rule s

/-- Of three entries that can be read the first is taken up to a quota of one, and the two
others after it.  One by one there are all three. -/
theorem quotas_add_up_register :
    (∃ first second,
      ((childrenAtMost 1 entryNumber).eval .silent register).outcome = .ok first ∧
        ((childrenAtMost 2 entryNumber).eval .silent
          ((childrenAtMost 1 entryNumber).eval .silent register).scope).outcome = .ok second ∧
        first ++ second = ["1", "3", "4"]) ∧
      register.children.length < unlimited ∧
      (oneByOne .silent entryNumber register).1 = ["1", "3", "4"] := by
  obtain ⟨hquotas, hall⟩ := quotas_add_up .silent entryNumber register
  obtain ⟨first, second, hfirst, hsecond, honce, _⟩ := hquotas 1 2
  have hlength : register.children.length < unlimited := by decide
  obtain ⟨heach, _⟩ := hall hlength
  have hthree : ((childrenAtMost (1 + 2) entryNumber).eval .silent register).outcome =
      .ok ["1", "3", "4"] := rfl
  have hunlimited : ((childrenOpt entryNumber).eval .silent register).outcome =
      .ok ["1", "3", "4"] := rfl
  refine ⟨⟨first, second, hfirst, hsecond, ?_⟩, hlength, ?_⟩
  · exact Except.ok.inj (honce.symm.trans hthree)
  · exact Except.ok.inj (heach.symm.trans hunlimited)

end Rule

end ElementGrammar
