import ElementGrammar.Proofs.Rule.Read

/-!
# Errors decide nothing

Children carry the errors of earlier attempts on them.  Two scopes are similar where they
differ in these errors only, and a rule that does not act on what errors say does the same on
both.

* `Rule.Parallel` compares two rules step by step.  They may come upon different errors, keep
  them and put them into messages, but what they do next is the same: a step may use a value,
  or whether an earlier step failed, and of a scope everything but the errors.
  `Rule.IgnoresErrors` is that a rule is parallel to itself.
* `Slot.FareAlike` says what becomes of the children of two similar scopes: a child is taken
  in both, or stays in both with the same errors added.
* `Rule.Parallel.eval_alike` is the induction over two parallel rules.  It carries the outcome,
  the similarity of what is left, and the errors that are added.

Children are tried in scopes of their own, without any errors, so a rule on children may look
at all that it likes.
-/

namespace ElementGrammar

variable {α β : Type}

/-! ## Similar scopes -/

/-- Two children that are the same element, with whatever errors. -/
def Slot.SameElement (slot slot' : Slot ParseError) : Prop :=
  slot'.element = slot.element

/-- Two scopes that differ in the errors of the children only. -/
structure Scope.Similar (s s' : Scope) : Prop where
  element : s'.element = s.element
  attrs : s'.attrs = s.attrs
  children : List.Forall₂ Slot.SameElement s.children s'.children
  text : s'.text = s.text

/-- Two runs that both have a value, with the values related, or both fail. -/
inductive SameEnd (R : α → α → Prop) : Except ParseError α → Except ParseError α → Prop where
  | ok {value value' : α} (h : R value value') : SameEnd R (.ok value) (.ok value')
  | error (e e' : ParseError) : SameEnd R (.error e) (.error e')

theorem SameEnd.ok_or_error {R : α → α → Prop} {end₁ end₂ : Except ParseError α}
    (h : SameEnd R end₁ end₂) :
    (∃ value value', end₁ = .ok value ∧ end₂ = .ok value' ∧ R value value') ∨
      ∃ e e', end₁ = .error e ∧ end₂ = .error e' := by
  cases h with
  | ok h => exact Or.inl ⟨_, _, rfl, rfl, h⟩
  | error e e' => exact Or.inr ⟨e, e', rfl, rfl⟩

/-! ## Rules that ignore errors -/

namespace Rule

/-- Two rules that do the same where the errors are different that they come upon.  `R` says
which values of the two correspond: what is made of errors need not be the same. -/
inductive Parallel : {α : Type} → (α → α → Prop) → Rule α → Rule α → Prop where
  | pure {α : Type} {R : α → α → Prop} {value value' : α} (h : R value value') :
    Parallel R (.pure value) (.pure value')
  | bind {α β : Type} {S : β → β → Prop} {R : α → α → Prop} {rule rule' : Rule β}
    {next next' : β → Rule α} (hrule : Parallel S rule rule')
    (hnext : ∀ value value', S value value' → Parallel R (next value) (next' value')) :
    Parallel R (.bind rule next) (.bind rule' next')
  | fail {α : Type} {R : α → α → Prop} (message message' : String) :
    Parallel R (.fail message) (.fail message')
  | element : Parallel Eq .element .element
  | scope : Parallel Scope.Similar .scope .scope
  | takeAttr (key : String) : Parallel Eq (.takeAttr key) (.takeAttr key)
  | dropAttrsFrom (start : String) : Parallel Eq (.dropAttrsFrom start) (.dropAttrsFrom start)
  | takeText : Parallel Eq .takeText .takeText
  | dropChildrenNamed (name : String) :
    Parallel Eq (.dropChildrenNamed name) (.dropChildrenNamed name)
  | ensureDrained : Parallel Eq .ensureDrained .ensureDrained
  | missingChild {α : Type} {R : α → α → Prop} : Parallel R .missingChild .missingChild
  | childrenAtMost {α : Type} (quota : Nat) (rule : Rule α) :
    Parallel Eq (.childrenAtMost quota rule) (.childrenAtMost quota rule)
  | choice {α : Type} {R : α → α → Prop} {count : Nat} {rules rules' : Fin count → Rule α}
    (h : ∀ i, Parallel R (rules i) (rules' i)) :
    Parallel R (.choice count rules) (.choice count rules')
  | attempt {α : Type} {R : α → α → Prop} {rule rule' : Rule α} (h : Parallel R rule rule') :
    Parallel (SameEnd R) (.attempt rule) (.attempt rule')

/-- What the rule does depends on values and on which steps fail, and not on what errors
say. -/
def IgnoresErrors (rule : Rule α) : Prop :=
  Parallel Eq rule rule

/-- A rule that looks at no error ignores all of them. -/
theorem Blind.ignoresErrors {rule : Rule α} (h : rule.Blind) : rule.IgnoresErrors := by
  induction rule with
  | pure value => exact .pure rfl
  | bind rule next ih ihNext =>
    refine .bind (ih h.1) ?_
    intro value value' hvalue
    subst hvalue
    exact ihNext value (h.2 value)
  | fail message => exact .fail message message
  | element => exact .element
  | scope => exact h.elim
  | takeAttr key => exact .takeAttr key
  | dropAttrsFrom start => exact .dropAttrsFrom start
  | takeText => exact .takeText
  | dropChildrenNamed name => exact .dropChildrenNamed name
  | ensureDrained => exact .ensureDrained
  | missingChild => exact .missingChild
  | childrenAtMost quota rule => exact .childrenAtMost quota rule
  | choice count rules ih => exact .choice fun i => ih i (h i)
  | attempt => exact h.elim

end Rule

/-! ## What becomes of children in two runs -/

namespace Slot

/-- How children fare in two runs: one that is taken is taken in both, and one that stays in
both has the same errors added to those that it had. -/
inductive FareAlike : (slots slots' later later' : List (Slot ParseError)) → Prop where
  | nil : FareAlike [] [] [] []
  | taken (slot slot' : Slot ParseError) {slots slots' later later' : List (Slot ParseError)}
    (h : FareAlike slots slots' later later') :
    FareAlike (slot :: slots) (slot' :: slots') later later'
  | stays (slot slot' : Slot ParseError) (added : List ParseError)
    {slots slots' later later' : List (Slot ParseError)}
    (h : FareAlike slots slots' later later') :
    FareAlike (slot :: slots) (slot' :: slots')
      ({ slot with errors := slot.errors ++ added } :: later)
      ({ slot' with errors := slot'.errors ++ added } :: later')

namespace FareAlike

variable {slots slots' later later' last last' : List (Slot ParseError)}

theorem unchanged_cons (slot slot' : Slot ParseError) (h : FareAlike slots slots' later later') :
    FareAlike (slot :: slots) (slot' :: slots') (slot :: later) (slot' :: later') := by
  have hstays := FareAlike.stays slot slot' [] h
  rwa [List.append_nil, List.append_nil] at hstays

theorem refl (h : List.Forall₂ SameElement slots slots') :
    FareAlike slots slots' slots slots' := by
  induction h with
  | nil => exact .nil
  | cons _ _ ih => exact ih.unchanged_cons _ _

/-- The errors that are added in a second pair of runs come after those of the first. -/
theorem trans (h : FareAlike slots slots' later later') (h' : FareAlike later later' last last') :
    FareAlike slots slots' last last' := by
  induction h generalizing last last' with
  | nil => exact h'
  | taken slot slot' _ ih => exact .taken slot slot' (ih h')
  | stays slot slot' added _ ih =>
    cases h' with
    | taken _ _ h' => exact .taken slot slot' (ih h')
    | stays _ _ added' h' =>
      have hstays := FareAlike.stays slot slot' (added ++ added') (ih h')
      rwa [← List.append_assoc, ← List.append_assoc] at hstays

/-- Children that were the same elements are so afterwards. -/
theorem sameElement (h : FareAlike slots slots' later later')
    (hslots : List.Forall₂ SameElement slots slots') :
    List.Forall₂ SameElement later later' := by
  induction h with
  | nil => exact .nil
  | taken slot slot' _ ih => exact ih (List.forall₂_cons.mp hslots).2
  | stays slot slot' added _ ih =>
    obtain ⟨hslot, hrest⟩ := List.forall₂_cons.mp hslots
    exact .cons hslot (ih hrest)

/-- Children are dropped by their elements. -/
theorem filter (p : Element → Bool) (h : List.Forall₂ SameElement slots slots') :
    FareAlike slots slots' (slots.filter fun slot => p slot.element)
      (slots'.filter fun slot => p slot.element) := by
  induction h with
  | nil => exact .nil
  | @cons slot slot' _ _ hslot _ ih =>
    have hp : p slot'.element = p slot.element := congrArg p hslot
    rw [List.filter_cons, List.filter_cons, hp]
    cases p slot.element with
    | true => exact ih.unchanged_cons slot slot'
    | false => exact .taken slot slot' ih

end FareAlike

end Slot

/-! ## Two runs -/

/-- Two runs, on `s` and `s'`, that end alike and leave similar scopes, and add the same errors
to each child that stays. -/
structure Run.Alike (R : α → α → Prop) (s s' : Scope) (r r' : Run α) : Prop where
  outcome : SameEnd R r.outcome r'.outcome
  similar : r.scope.Similar r'.scope
  children : Slot.FareAlike s.children s'.children r.scope.children r'.scope.children

namespace Run.Alike

variable {R : α → α → Prop} {S : β → β → Prop} {s s' : Scope}

/-- Runs that leave the children as they are. -/
theorem of_children {r r' : Run α} (hs : s.Similar s') (houtcome : SameEnd R r.outcome r'.outcome)
    (hsimilar : r.scope.Similar r'.scope) (hchildren : r.scope.children = s.children)
    (hchildren' : r'.scope.children = s'.children) : r.Alike R s s' r' where
  outcome := houtcome
  similar := hsimilar
  children := by
    rw [hchildren, hchildren']
    exact .refl hs.children

/-- Runs that leave the scope as it is. -/
theorem of_outcome (hs : s.Similar s') {outcome outcome' : Except ParseError α}
    (h : SameEnd R outcome outcome') (attempts attempts' : List Attempt) :
    (⟨outcome, s, attempts⟩ : Run α).Alike R s s' ⟨outcome', s', attempts'⟩ :=
  of_children hs h hs rfl rfl

theorem andThen {r r' : Run β} (h : r.Alike S s s' r') {next next' : β → Scope → Run α}
    (hnext : ∀ value value', S value value' →
      (next value r.scope).Alike R r.scope r'.scope (next' value' r'.scope)) :
    (r.andThen next).Alike R s s' (r'.andThen next') := by
  rcases h.outcome.ok_or_error with ⟨value, value', hr, hr', hvalue⟩ | ⟨e, e', hr, hr'⟩
  · rw [Run.andThen_of_ok hr, Run.andThen_of_ok hr']
    have hrest := hnext value value' hvalue
    exact ⟨hrest.outcome, hrest.similar, h.children.trans hrest.children⟩
  · rw [Run.andThen_of_error hr, Run.andThen_of_error hr']
    exact ⟨.error e e', h.similar, h.children⟩

end Run.Alike

namespace Scope

variable {R : α → α → Prop} {s s' : Scope} (tracing : Tracing)

theorem Similar.isDrained_eq (h : s.Similar s') : s'.isDrained = s.isDrained := by
  have hlength : s.children.length = s'.children.length := h.children.length_eq
  have hchildren : s'.children.isEmpty = s.children.isEmpty := by
    rw [Bool.eq_iff_iff, List.isEmpty_iff_length_eq_zero, List.isEmpty_iff_length_eq_zero,
      hlength]
  rw [isDrained, isDrained, h.attrs, h.text, hchildren]

theorem takeAttr_alike (h : s.Similar s') (key : String) :
    (s'.takeAttr key).1 = (s.takeAttr key).1 ∧
      (s.takeAttr key).2.Similar (s'.takeAttr key).2 := by
  unfold takeAttr
  rw [h.attrs]
  cases s.attrs.named? key with
  | none => exact ⟨rfl, h⟩
  | some a => exact ⟨rfl, h.element, rfl, h.children, h.text⟩

theorem children_takeAttr (s : Scope) (key : String) :
    (s.takeAttr key).2.children = s.children := by
  unfold takeAttr
  split <;> rfl

/-- A rule is tried on the elements, so the same children match, and the others have the same
error added. -/
theorem scan_alike (parent parent' : Element) (rule : Element → Run α) (quota : Nat)
    {slots slots' : List (Slot ParseError)} (h : List.Forall₂ Slot.SameElement slots slots') :
    (scan tracing parent' rule quota slots').values =
        (scan tracing parent rule quota slots).values ∧
      Slot.FareAlike slots slots' (scan tracing parent rule quota slots).kept
        (scan tracing parent' rule quota slots').kept := by
  induction h generalizing quota with
  | nil => cases quota <;> exact ⟨rfl, .nil⟩
  | @cons slot slot' slots slots' hslot hslots ih =>
    cases quota with
    | zero => exact ⟨rfl, .refl (.cons hslot hslots)⟩
    | succ quota =>
      have hsame : rule slot'.element = rule slot.element := congrArg rule hslot
      cases hr : (rule slot.element).outcome with
      | ok value =>
        have hr' : (rule slot'.element).outcome = .ok value := hsame ▸ hr
        obtain ⟨hvalues, hkept⟩ := ih quota
        rw [scan_cons_of_ok hr, scan_cons_of_ok hr']
        exact ⟨congrArg (value :: ·) hvalues, .taken slot slot' hkept⟩
      | error e =>
        have hr' : (rule slot'.element).outcome = .error e := hsame ▸ hr
        obtain ⟨hvalues, hkept⟩ := ih (quota + 1)
        rw [scan_cons_of_error hr, scan_cons_of_error hr']
        exact ⟨hvalues, .stays slot slot' [e] hkept⟩

/-- Alternatives that run alike are chosen alike. -/
theorem tryVariants_alike (hs : s.Similar s') (tried tried' : List ParseError)
    {rules rules' : List (Scope → Run α)}
    (h : List.Forall₂ (fun rule rule' => (rule s).Alike R s s' (rule' s')) rules rules') :
    (s.tryVariants tracing tried rules).Alike R s s' (s'.tryVariants tracing tried' rules') := by
  induction h generalizing tried tried' with
  | nil => exact .of_outcome hs (.error _ _) [] []
  | @cons rule rule' _ _ hrule _ ih =>
    rcases hrule.outcome.ok_or_error with ⟨value, value', hr, hr', hvalue⟩ | ⟨e, e', hr, hr'⟩
    · rw [tryVariants_cons_of_ok hr, tryVariants_cons_of_ok hr']
      exact ⟨.ok hvalue, hrule.similar, hrule.children⟩
    · rw [tryVariants_cons_of_error hr, tryVariants_cons_of_error hr']
      have hrest := ih (tried ++ [e]) (tried' ++ [e'])
      exact ⟨hrest.outcome, hrest.similar, hrest.children⟩

end Scope

namespace Rule

/-- Parallel rules run alike on similar scopes. -/
theorem Parallel.eval_alike (tracing : Tracing) {R : α → α → Prop} {rule rule' : Rule α}
    (h : Parallel R rule rule') {s s' : Scope} (hs : s.Similar s') :
    (rule.eval tracing s).Alike R s s' (rule'.eval tracing s') := by
  induction h generalizing s s' with
  | pure hvalue => exact .of_outcome hs (.ok hvalue) [] []
  | bind _ _ ih ihNext =>
    have hrule := ih hs
    exact hrule.andThen fun value value' hvalue => ihNext value value' hvalue hrule.similar
  | fail message message' => exact .of_outcome hs (.error _ _) [] []
  | element => exact .of_outcome hs (.ok hs.element.symm) [] []
  | scope => exact .of_outcome hs (.ok hs) [] []
  | takeAttr key =>
    obtain ⟨hvalue, hsimilar⟩ := Scope.takeAttr_alike hs key
    exact .of_children hs (.ok hvalue.symm) hsimilar (s.children_takeAttr key)
      (s'.children_takeAttr key)
  | dropAttrsFrom start =>
    refine .of_children hs (.ok rfl) ⟨hs.element, ?_, hs.children, hs.text⟩ rfl rfl
    exact congrArg (List.filter _) hs.attrs
  | takeText =>
    exact .of_children hs (.ok hs.text.symm) ⟨hs.element, hs.attrs, hs.children, rfl⟩ rfl rfl
  | dropChildrenNamed name =>
    have hchildren := Slot.FareAlike.filter (fun e => e.name != name) hs.children
    exact ⟨.ok rfl, ⟨hs.element, hs.attrs, hchildren.sameElement hs.children, hs.text⟩, hchildren⟩
  | ensureDrained =>
    refine .of_outcome hs ?_ [] []
    rw [Scope.ensureDrained, Scope.ensureDrained, hs.isDrained_eq]
    split
    · exact .ok rfl
    · exact .error _ _
  | missingChild => exact .of_outcome hs (.error _ _) [] []
  | childrenAtMost quota rule =>
    obtain ⟨hvalues, hkept⟩ := Scope.scan_alike tracing s.element s'.element
      (fun child => (rule.eval tracing (.ofElement child)).drained) quota hs.children
    exact ⟨.ok hvalues.symm,
      ⟨hs.element, hs.attrs, hkept.sameElement hs.children, hs.text⟩, hkept⟩
  | choice _ ih =>
    refine Scope.tryVariants_alike tracing hs [] [] ?_
    rw [List.forall₂_iff_get]
    refine ⟨by simp, ?_⟩
    intro i h₁ h₂
    simpa using ih _ hs
  | attempt _ ih =>
    have hrule := ih hs
    exact ⟨.ok hrule.outcome, hrule.similar, hrule.children⟩

/-- On scopes that differ in the errors of the children only, a rule that ignores errors has
the same value or fails on both.  What it leaves differs in these errors only, and each child
that it leaves had the same errors added. -/
theorem eval_regardless_of_errors (tracing : Tracing) {rule : Rule α} (h : rule.IgnoresErrors)
    {s s' : Scope} (hs : s.Similar s') :
    ((∃ value, (rule.eval tracing s).outcome = .ok value ∧
          (rule.eval tracing s').outcome = .ok value) ∨
        ∃ e e', (rule.eval tracing s).outcome = .error e ∧
          (rule.eval tracing s').outcome = .error e') ∧
      (rule.eval tracing s).scope.Similar (rule.eval tracing s').scope ∧
      Slot.FareAlike s.children s'.children (rule.eval tracing s).scope.children
        (rule.eval tracing s').scope.children := by
  have halike : (rule.eval tracing s).Alike Eq s s' (rule.eval tracing s') :=
    Parallel.eval_alike tracing h hs
  refine ⟨?_, halike.similar, halike.children⟩
  rcases halike.outcome.ok_or_error with ⟨value, value', hr, hr', hvalue⟩ | herror
  · exact Or.inl ⟨value, hr, hvalue ▸ hr'⟩
  · exact Or.inr herror

/-- A shelf with two books, the errors of which are given. -/
def shelfWith (errors errors' : List ParseError) : Scope :=
  ⟨⟨"shelf", [], [⟨"book", [], [], none⟩, ⟨"book", [⟨"n", "1"⟩], [], none⟩], none⟩, [],
    [⟨⟨"book", [], [], none⟩, errors⟩, ⟨⟨"book", [⟨"n", "1"⟩], [], none⟩, errors'⟩], none⟩

/-- Asks for a box; where there is none it takes the number of a book. -/
def boxOrBook : Rule (Option String) :=
  attempt (child (matchName "box")) >>= fun
    | .ok _ => pure none
    | .error _ => childOpt (matchName "book" >>= fun _ => attr "n")

/-- The error of the box that is missing names the errors that the books had, and makes no
difference. -/
theorem eval_regardless_of_errors_shelf :
    boxOrBook.IgnoresErrors ∧
      (shelfWith [] []).Similar (shelfWith [.other "old"] [.other "older", .other "old"]) ∧
      (boxOrBook.eval .silent
        (shelfWith [.other "old"] [.other "older", .other "old"])).outcome = .ok (some "1") := by
  have hrule : boxOrBook.IgnoresErrors := by
    refine .bind (.attempt (Blind.ignoresErrors (by simp))) ?_
    intro outcome outcome' hend
    cases hend with
    | ok => exact .pure rfl
    | error => exact Blind.ignoresErrors (by simp)
  have hsimilar : (shelfWith [] []).Similar
      (shelfWith [.other "old"] [.other "older", .other "old"]) :=
    ⟨rfl, rfl, .cons rfl (.cons rfl .nil), rfl⟩
  have hfirst : (boxOrBook.eval .silent (shelfWith [] [])).outcome = .ok (some "1") := rfl
  refine ⟨hrule, hsimilar, ?_⟩
  rcases (eval_regardless_of_errors .silent hrule hsimilar).1 with
    ⟨value, hr, hr'⟩ | ⟨e, _, hr, _⟩
  · rw [hr', ← hr, hfirst]
  · rw [hfirst] at hr
    contradiction

end Rule

end ElementGrammar
