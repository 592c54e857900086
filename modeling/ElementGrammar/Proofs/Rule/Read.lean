import ElementGrammar.Proofs.Rule.Choice
import ElementGrammar.Proofs.Tree.Named

/-!
# What a rule reads

A run leaves errors on children and lists its attempts.  A rule that never looks at an
error reads the same whatever errors there are, so what it reads can be said without
them.

* `Rest` is what is left of an element, children without errors.
* `Rule.read` is the value of a rule and what it leaves, where it has a value.
* `Rule.Blind` says that a rule looks at no error.  `Rule.result_eval` is that its runs
  then have the values that it reads, and `Rule.run_eq_ok_iff` is this for whole elements.
-/

namespace ElementGrammar

variable {α β ε : Type}

/-- What is left of an element. -/
structure Rest where
  element : Element
  attrs : Attributes
  children : List Element
  text : Option String

namespace Rest

def ofElement (e : Element) : Rest :=
  ⟨e, e.attrs, e.children, e.text⟩

def dropAttr (x : Rest) (key : String) : Rest :=
  { x with attrs := x.attrs.without key }

def dropAttrsFrom (x : Rest) (start : String) : Rest :=
  { x with attrs := x.attrs.filter fun a => !start.toList.isPrefixOf a.name.toList }

def dropText (x : Rest) : Rest :=
  { x with text := none }

def dropNamed (x : Rest) (name : String) : Rest :=
  { x with children := others name x.children }

section Fields

variable (e : Element) (x : Rest) (key start name : String)

@[simp] theorem element_ofElement : (ofElement e).element = e := rfl
@[simp] theorem attrs_ofElement : (ofElement e).attrs = e.attrs := rfl
@[simp] theorem children_ofElement : (ofElement e).children = e.children := rfl
@[simp] theorem text_ofElement : (ofElement e).text = e.text := rfl

@[simp] theorem element_dropAttr : (x.dropAttr key).element = x.element := rfl
@[simp] theorem attrs_dropAttr : (x.dropAttr key).attrs = x.attrs.without key := rfl
@[simp] theorem children_dropAttr : (x.dropAttr key).children = x.children := rfl
@[simp] theorem text_dropAttr : (x.dropAttr key).text = x.text := rfl

@[simp] theorem element_dropAttrsFrom : (x.dropAttrsFrom start).element = x.element := rfl
@[simp] theorem children_dropAttrsFrom : (x.dropAttrsFrom start).children = x.children := rfl
@[simp] theorem text_dropAttrsFrom : (x.dropAttrsFrom start).text = x.text := rfl

@[simp] theorem element_dropText : x.dropText.element = x.element := rfl
@[simp] theorem attrs_dropText : x.dropText.attrs = x.attrs := rfl
@[simp] theorem children_dropText : x.dropText.children = x.children := rfl
@[simp] theorem text_dropText : x.dropText.text = none := rfl

@[simp] theorem element_dropNamed : (x.dropNamed name).element = x.element := rfl
@[simp] theorem attrs_dropNamed : (x.dropNamed name).attrs = x.attrs := rfl
@[simp] theorem children_dropNamed : (x.dropNamed name).children = others name x.children := rfl
@[simp] theorem text_dropNamed : (x.dropNamed name).text = x.text := rfl

end Fields

def isDrained (x : Rest) : Bool :=
  x.attrs.isEmpty && x.children.isEmpty && x.text.isNone

/-- The values of the first elements that can be read, `quota` of them at most, and the
other elements. -/
def pick (read : Element → Option α) : (quota : Nat) → List Element → List α × List Element
  | 0, cs => ([], cs)
  | _ + 1, [] => ([], [])
  | quota + 1, c :: cs =>
    match read c with
    | some value => (value :: (pick read quota cs).1, (pick read quota cs).2)
    | none => ((pick read (quota + 1) cs).1, c :: (pick read (quota + 1) cs).2)

/-- The value of a reading that leaves nothing. -/
def whole : Option (α × Rest) → Option α
  | none => none
  | some (value, x) => if x.isDrained then some value else none

end Rest

namespace Rule

/-- The value of a rule and what it leaves, where it has a value.  A rule that looks at
errors is not read. -/
def read {α : Type} : Rule α → Rest → Option (α × Rest)
  | .pure value, x => some (value, x)
  | .bind rule next, x => (read rule x).bind fun r => read (next r.1) r.2
  | .fail _, _ => none
  | .element, x => some (x.element, x)
  | .scope, _ => none
  | .takeAttr key, x => some (x.attrs.value? key, x.dropAttr key)
  | .dropAttrsFrom start, x => some ((), x.dropAttrsFrom start)
  | .takeText, x => some (x.text, x.dropText)
  | .dropChildrenNamed name, x => some ((), x.dropNamed name)
  | .ensureDrained, x => if x.isDrained then some ((), x) else none
  | .missingChild, _ => none
  | .childrenAtMost quota rule, x =>
    let found := Rest.pick (fun c => Rest.whole (read rule (.ofElement c))) quota x.children
    some (found.1, { x with children := found.2 })
  | .choice _ rules, x => (List.ofFn fun i => read (rules i) x).findSome? id
  | .attempt _, _ => none

/-- The rule reads a value from the whole of an element. -/
def Reads (rule : Rule α) (e : Element) (value : α) : Prop :=
  Rest.whole (rule.read (.ofElement e)) = some value

/-- The rule looks at no error. -/
def Blind {α : Type} : Rule α → Prop
  | .bind rule next => Blind rule ∧ ∀ value, Blind (next value)
  | .childrenAtMost _ rule => Blind rule
  | .choice _ rules => ∀ i, Blind (rules i)
  | .scope => False
  | .attempt _ => False
  | _ => True

end Rule

/-! ## Scopes and runs without errors -/

/-- What is left in a scope. -/
def Scope.rest (s : Scope) : Rest :=
  ⟨s.element, s.attrs, s.children.map (·.element), s.text⟩

/-- The value of a run and what it left, where it has a value. -/
def Run.result (r : Run α) : Option (α × Rest) :=
  match r.outcome with
  | .ok value => some (value, r.scope.rest)
  | .error _ => none

namespace Run

theorem result_of_ok {r : Run α} {value : α} (h : r.outcome = .ok value) :
    r.result = some (value, r.scope.rest) := by
  rw [result, h]

theorem result_of_error {r : Run α} {e : ParseError} (h : r.outcome = .error e) :
    r.result = none := by
  rw [result, h]

theorem result_andThen (r : Run β) (next : β → Scope → Run α)
    {read : β → Rest → Option (α × Rest)}
    (h : ∀ value s, (next value s).result = read value s.rest) :
    (r.andThen next).result = r.result.bind fun p => read p.1 p.2 := by
  cases hr : r.outcome with
  | ok value =>
    rw [andThen_of_ok hr, result_of_ok hr]
    exact h value r.scope
  | error e =>
    rw [andThen_of_error hr, result_of_error hr]
    rfl

theorem isDrained_rest (s : Scope) : s.rest.isDrained = s.isDrained := by
  simp [Rest.isDrained, Scope.isDrained, Scope.rest]

/-- A run that has to take everything has the value of a reading that leaves nothing. -/
theorem drained_outcome_toOption (r : Run α) :
    r.drained.outcome.toOption = Rest.whole r.result := by
  cases hr : r.outcome with
  | error e =>
    rw [result_of_error hr, drained, hr]
    simp only [hr]
    rfl
  | ok value =>
    rw [result_of_ok hr, drained, hr, Rest.whole, isDrained_rest, Scope.ensureDrained]
    by_cases hd : r.scope.isDrained = true
    · simp only [hd, hr, if_true]
      rfl
    · simp only [hd]
      rfl

end Run

namespace Scope

theorem rest_ofElement (e : Element) : (ofElement e).rest = .ofElement e := by
  simp [rest, ofElement, Rest.ofElement, Function.comp_def]

theorem takeAttr_eq (s : Scope) (key : String) :
    s.takeAttr key = (s.attrs.value? key, { s with attrs := s.attrs.without key }) := by
  unfold takeAttr
  cases h : s.attrs.named? key with
  | some a =>
    rw [Attributes.value?, h]
    rfl
  | none =>
    have hnone : s.attrs.value? key = none := by rw [Attributes.value?, h]; rfl
    rw [Attributes.without_of_value?_none hnone, hnone]

theorem rest_takeAttr (s : Scope) (key : String) :
    (s.takeAttr key).1 = s.rest.attrs.value? key ∧
      (s.takeAttr key).2.rest = s.rest.dropAttr key := by
  rw [takeAttr_eq]
  exact ⟨rfl, rfl⟩

theorem rest_dropChildrenNamed (s : Scope) (name : String) :
    (s.dropChildrenNamed name).rest = s.rest.dropNamed name := by
  simp only [rest, dropChildrenNamed, Rest.dropNamed, others, List.filter_map]
  rfl

/-- Trying a rule on children picks those that it reads. -/
theorem scan_pick (tracing : Tracing) (parent : Element) {rule : Element → Run α}
    {read : Element → Option α} (h : ∀ c, (rule c).outcome.toOption = read c) (quota : Nat)
    (slots : List (Slot ParseError)) :
    Rest.pick read quota (slots.map (·.element)) =
      ((scan tracing parent rule quota slots).values,
        (scan tracing parent rule quota slots).kept.map (·.element)) := by
  induction slots generalizing quota with
  | nil => cases quota <;> rfl
  | cons slot slots ih =>
    cases quota with
    | zero => rfl
    | succ quota =>
      have hread := h slot.element
      rw [List.map_cons, Rest.pick, ← hread]
      cases hr : (rule slot.element).outcome with
      | ok value =>
        rw [scan_cons_of_ok hr]
        simp only [Except.toOption, ih]
      | error e =>
        rw [scan_cons_of_error hr]
        simp only [Except.toOption, ih, List.map_cons]
        rfl

/-- A choice has the result of the first alternative that has one. -/
theorem result_tryVariants (s : Scope) (tracing : Tracing) (tried : List ParseError)
    (rules : List (Scope → Run α)) :
    (s.tryVariants tracing tried rules).result =
      (rules.map fun rule => (rule s).result).findSome? id := by
  induction rules generalizing tried with
  | nil => rfl
  | cons rule rules ih =>
    rw [List.map_cons, List.findSome?_cons]
    cases hr : (rule s).outcome with
    | ok value =>
      rw [tryVariants_cons_of_ok hr, Run.result_of_ok hr]
      rfl
    | error e =>
      rw [tryVariants_cons_of_error hr, Run.result_of_error hr]
      exact ih (tried ++ [e])

end Scope

/-! ## Rules that look at no error -/

namespace Rule

/-- A rule that looks at no error has the results that it reads. -/
theorem result_eval (tracing : Tracing) {rule : Rule α} (h : rule.Blind) (s : Scope) :
    (rule.eval tracing s).result = rule.read s.rest := by
  induction rule generalizing s with
  | pure | fail | element | missingChild | takeText | dropAttrsFrom => rfl
  | scope => exact h.elim
  | attempt => exact h.elim
  | bind rule next ih ihNext =>
    rw [eval, read, ← ih h.1 s]
    exact Run.result_andThen _ _ fun value s => ihNext value (h.2 value) s
  | takeAttr key =>
    obtain ⟨hvalue, hrest⟩ := s.rest_takeAttr key
    rw [eval, read, ← hvalue, ← hrest]
    rfl
  | dropChildrenNamed name =>
    rw [read, ← s.rest_dropChildrenNamed name]
    rfl
  | ensureDrained =>
    rw [eval, read, Run.isDrained_rest, Scope.ensureDrained]
    by_cases hd : s.isDrained = true <;> simp [hd, Run.result]
  | childrenAtMost quota rule ih =>
    have hrule : ∀ c, ((rule.eval tracing (.ofElement c)).drained).outcome.toOption =
        Rest.whole (rule.read (.ofElement c)) := by
      intro c
      rw [Run.drained_outcome_toOption, ih h, Scope.rest_ofElement]
    have hpick := Scope.scan_pick tracing s.element hrule quota s.children
    rw [eval, read]
    simp only [Scope.rest, hpick]
    rfl
  | choice count rules ih =>
    rw [eval, read, Scope.result_tryVariants, List.map_ofFn]
    congr 2
    exact funext fun i => ih i (h i) s

/-- A rule that looks at no error matches an element with the value that it reads from
it. -/
theorem run_eq_ok_iff (tracing : Tracing) {rule : Rule α} (h : rule.Blind) {e : Element}
    {value : α} : (rule.run tracing e).outcome = .ok value ↔ rule.Reads e value := by
  have hrun := Run.drained_outcome_toOption (rule.eval tracing (.ofElement e))
  rw [result_eval tracing h, Scope.rest_ofElement] at hrun
  rw [Reads, ← hrun, run]
  cases (rule.eval tracing (Scope.ofElement e)).drained.outcome <;> simp [Except.toOption]

/-! ## Combinators that look at no error -/

section Blind

variable {next : β → Rule α}

@[simp] theorem blind_pure (value : α) : (Pure.pure value : Rule α).Blind :=
  trivial

@[simp] theorem blind_bind {rule : Rule β} :
    (rule >>= next).Blind ↔ rule.Blind ∧ ∀ value, (next value).Blind :=
  Iff.rfl

@[simp] theorem blind_fail (message : String) : (fail message : Rule α).Blind :=
  trivial

@[simp] theorem blind_missingChild : (missingChild : Rule α).Blind :=
  trivial

@[simp] theorem blind_element : element.Blind :=
  trivial

@[simp] theorem blind_takeAttr (key : String) : (takeAttr key).Blind :=
  trivial

@[simp] theorem blind_dropAttrsFrom (start : String) : (dropAttrsFrom start).Blind :=
  trivial

@[simp] theorem blind_takeText : takeText.Blind :=
  trivial

@[simp] theorem blind_dropChildrenNamed (name : String) : (dropChildrenNamed name).Blind :=
  trivial

@[simp] theorem blind_ensureDrained : ensureDrained.Blind :=
  trivial

@[simp] theorem blind_ite {p : Prop} [Decidable p] {rule rule' : Rule α} :
    (if p then rule else rule').Blind ↔ (p → rule.Blind) ∧ (¬p → rule'.Blind) := by
  split <;> simp_all

@[simp] theorem blind_childrenAtMost (quota : Nat) (rule : Rule α) :
    (childrenAtMost quota rule).Blind ↔ rule.Blind :=
  Iff.rfl

@[simp] theorem blind_oneOf (rules : List (Rule α)) :
    (oneOf rules).Blind ↔ ∀ rule ∈ rules, rule.Blind := by
  show (∀ i, (rules.get i).Blind) ↔ _
  rw [List.forall_mem_iff_get]

@[simp] theorem blind_matchName (name : String) : (matchName name).Blind := by
  simp [matchName]

@[simp] theorem blind_attr (key : String) : (attr key).Blind := by
  refine ⟨trivial, fun value => ?_⟩
  cases value <;> exact trivial

@[simp] theorem blind_readValue [ToString ε] (read : String → Except ε α)
    (key value : String) : (readValue read key value).Blind := by
  unfold readValue
  split <;> exact trivial

@[simp] theorem blind_attrRead [ToString ε] (read : String → Except ε α) (key : String) :
    (attrRead read key).Blind := by
  simp [attrRead]

@[simp] theorem blind_attrReadOpt [ToString ε] (read : String → Except ε α)
    (key : String) : (attrReadOpt read key).Blind := by
  refine ⟨trivial, fun value => ?_⟩
  cases value <;> simp

@[simp] theorem blind_dropAttr (key : String) : (dropAttr key).Blind := by
  simp [dropAttr]

@[simp] theorem blind_text : text.Blind := by
  simp [text]

@[simp] theorem blind_blankText : blankText.Blind := by
  simp [blankText]

@[simp] theorem blind_childOpt {rule : Rule α} : (childOpt rule).Blind ↔ rule.Blind := by
  simp [childOpt]

@[simp] theorem blind_child {rule : Rule α} : (child rule).Blind ↔ rule.Blind := by
  refine ⟨fun h => blind_childOpt.mp h.1, fun h => ⟨blind_childOpt.mpr h, fun value => ?_⟩⟩
  cases value <;> exact trivial

@[simp] theorem blind_childrenOpt {rule : Rule α} : (childrenOpt rule).Blind ↔ rule.Blind :=
  Iff.rfl

@[simp] theorem blind_children {rule : Rule α} : (children rule).Blind ↔ rule.Blind := by
  simp [children]

end Blind

end Rule

end ElementGrammar
