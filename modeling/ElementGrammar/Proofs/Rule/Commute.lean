import ElementGrammar.Proofs.Rule.Read
import ElementGrammar.Proofs.Rule.Required

/-!
# Steps that may change places

A rule takes items out of a scope one step after the other, so the order of its steps could
matter.  It does not where the steps are after different items.

* `Reach` says which attributes a step takes.  `Reach.value?_left` and `Reach.left_comm` are
  that two reaches that are apart do not see each other, with attributes that share a name or
  without.
* `Slot.firstValues_settle` and `Slot.settle_comm` compare two scans in the two orders, by
  induction along one of them: at each child at most one of the scans goes on with a smaller
  quota, and a child on which both fail has the same two errors in the two orders.
* `Rule.Ignores` is that a change of the scope makes no difference to a rule.  It passes from
  the steps of a rule to the rule (`Rule.Ignores.bind`), and two steps that ignore each other
  commute (`Rule.Commutes.of_ignores`).
* `Rule.AttrStep`, `Rule.TextStep` and `Rule.ChildStep` list the steps on a scope, and
  `Rule.Independent` the pairs of them that are after different items.

`Rule.independent_commutes` is that such a pair may change places.  Only the errors of a child
on which both were tried are left in another order.
-/

namespace ElementGrammar

variable {α β ε : Type}

/-! ## Attributes within reach -/

/-- Which attributes a step takes. -/
inductive Reach where
  /-- The first attribute of a name. -/
  | key (name : String)
  /-- All attributes whose name starts with a text. -/
  | start (text : String)

namespace Reach

/-- The value that a step finds.  A step that takes attributes by their start looks at no
value. -/
def value? : Reach → Attributes → Option String
  | .key name, as => as.value? name
  | .start _, _ => none

/-- The attributes that a step leaves. -/
def left : Reach → Attributes → Attributes
  | .key name, as => as.without name
  | .start text, as => as.filter fun a => !text.toList.isPrefixOf a.name.toList

/-- The scope that a step leaves. -/
def take (reach : Reach) (s : Scope) : Scope :=
  { s with attrs := reach.left s.attrs }

/-- A change of the scope touches none of the attributes that a step takes. -/
structure SparedBy (reach : Reach) (change : Scope → Scope) : Prop where
  value? : ∀ s, reach.value? (change s).attrs = reach.value? s.attrs
  take : ∀ s, reach.take (change s) = change (reach.take s)

/-- Neither step takes an attribute that would make a difference to the other. -/
def Apart : Reach → Reach → Prop
  | .key name, .key other => name ≠ other
  | .key name, .start text => ¬ text.toList <+: name.toList
  | .start text, .key name => ¬ text.toList <+: name.toList
  | .start _, .start _ => True

variable {reach reach' : Reach}

/-- An attribute whose name does not start with a text is kept by a step on those that do. -/
theorem kept_of_other_start {text name : String} (h : ¬ text.toList <+: name.toList) :
    ∀ a : Attribute, a.name = name → (!text.toList.isPrefixOf a.name.toList) = true := by
  intro a ha
  rw [ha, Bool.not_eq_true', Bool.eq_false_iff, ne_eq, List.isPrefixOf_iff_prefix]
  exact h

theorem Apart.symm (h : reach.Apart reach') : reach'.Apart reach := by
  cases reach with
  | key name =>
    cases reach' with
    | key other =>
      have hne : name ≠ other := h
      exact hne.symm
    | start text => exact h
  | start text =>
    cases reach' with
    | key name => exact h
    | start other => trivial

theorem value?_left (h : reach.Apart reach') (as : Attributes) :
    reach.value? (reach'.left as) = reach.value? as := by
  cases reach with
  | start text => rfl
  | key name =>
    cases reach' with
    | key other =>
      have hne : name ≠ other := h
      exact Attributes.value?_without hne
    | start text => exact Attributes.value?_filter (kept_of_other_start h)

theorem left_comm (h : reach.Apart reach') (as : Attributes) :
    reach.left (reach'.left as) = reach'.left (reach.left as) := by
  cases reach with
  | key name =>
    cases reach' with
    | key other =>
      have hne : name ≠ other := h
      exact Attributes.without_comm hne.symm
    | start text => exact Attributes.without_filter (kept_of_other_start h)
  | start text =>
    cases reach' with
    | key name => exact (Attributes.without_filter (kept_of_other_start h)).symm
    | start other =>
      unfold left
      exact List.filter_comm ..

theorem Apart.sparedBy (h : reach.Apart reach') : reach.SparedBy reach'.take where
  value? s := value?_left h s.attrs
  take s := congrArg (fun as => { s with attrs := as }) (left_comm h s.attrs)

end Reach

/-! ## Two scans -/

namespace Slot

/-- The same child, with its errors in any order. -/
def Reordered (slot slot' : Slot ParseError) : Prop :=
  slot'.element = slot.element ∧ slot.errors.Perm slot'.errors

theorem forall₂_reordered_refl (slots : List (Slot ParseError)) :
    List.Forall₂ Reordered slots slots :=
  List.forall₂_same.mpr fun slot _ => ⟨rfl, List.Perm.refl slot.errors⟩

/-- Two errors may be added in either order. -/
theorem reordered_withError (slot : Slot ParseError) (e e' : ParseError) :
    ((slot.withError e).withError e').Reordered ((slot.withError e').withError e) := by
  refine ⟨rfl, ?_⟩
  show ((slot.errors ++ [e]) ++ [e']).Perm ((slot.errors ++ [e']) ++ [e])
  rw [List.append_assoc, List.append_assoc]
  exact (List.Perm.swap e' e []).append_left slot.errors

theorem Reordered.symm {slot slot' : Slot ParseError} (h : slot.Reordered slot') :
    slot'.Reordered slot :=
  ⟨h.1.symm, h.2.symm⟩

variable {verdict : Element → Except ParseError α} {verdict' : Element → Except ParseError β}
variable {slots : List (Slot ParseError)}

/-- No child matches in both ways. -/
def NoneMatchBoth (verdict : Element → Except ParseError α)
    (verdict' : Element → Except ParseError β) (slots : List (Slot ParseError)) : Prop :=
  ∀ slot ∈ slots, ∀ value value', verdict slot.element = .ok value →
    verdict' slot.element ≠ .ok value'

theorem NoneMatchBoth.symm (h : NoneMatchBoth verdict verdict' slots) :
    NoneMatchBoth verdict' verdict slots :=
  fun slot hslot value value' hvalue hvalue' => h slot hslot value' value hvalue' hvalue

/-- A scan for other children leaves the values where they are. -/
theorem firstValues_settle (h : NoneMatchBoth verdict verdict' slots) (quota quota' : Nat) :
    firstValues verdict quota (settle verdict' quota' slots) =
      firstValues verdict quota slots := by
  unfold firstValues
  congr 1
  induction quota', slots using scan_induction verdict' with
  | zero slots => rw [settle_zero]
  | nil quota' => rfl
  | ok quota' slot slots value' hverdict' ih =>
    obtain ⟨hslot, hrest⟩ := List.forall_mem_cons.mp h
    cases hverdict : verdict slot.element with
    | ok value => exact absurd hverdict' (hslot value value' hverdict)
    | error e =>
      rw [settle_cons_of_ok hverdict', List.filterMap_cons, hverdict]
      exact ih hrest
  | error quota' slot slots e hverdict' ih =>
    obtain ⟨_, hrest⟩ := List.forall_mem_cons.mp h
    rw [settle_cons_of_error hverdict', List.filterMap_cons, List.filterMap_cons, ih hrest]
    rfl

theorem settle_comm (h : NoneMatchBoth verdict verdict' slots) (quota quota' : Nat) :
    List.Forall₂ Reordered (settle verdict' quota' (settle verdict quota slots))
      (settle verdict quota (settle verdict' quota' slots)) := by
  induction quota, slots using scan_induction verdict generalizing quota' with
  | zero slots =>
    rw [settle_zero, settle_zero]
    exact forall₂_reordered_refl _
  | nil quota => cases quota' <;> exact .nil
  | ok quota slot slots value hverdict ih =>
    obtain ⟨hslot, hrest⟩ := List.forall_mem_cons.mp h
    cases quota' with
    | zero =>
      rw [settle_zero, settle_zero]
      exact forall₂_reordered_refl _
    | succ quota' =>
      cases hverdict' : verdict' slot.element with
      | ok value' => exact absurd hverdict' (hslot value value' hverdict)
      | error e' =>
        have hagain : verdict (slot.withError e').element = .ok value := hverdict
        rw [settle_cons_of_ok hverdict, settle_cons_of_error hverdict', settle_cons_of_ok hagain]
        exact ih hrest (quota' + 1)
  | error quota slot slots e hverdict ih =>
    obtain ⟨_, hrest⟩ := List.forall_mem_cons.mp h
    have hagain : verdict' (slot.withError e).element = verdict' slot.element := rfl
    cases quota' with
    | zero =>
      rw [settle_zero, settle_zero]
      exact forall₂_reordered_refl _
    | succ quota' =>
      cases hverdict' : verdict' slot.element with
      | ok value' =>
        rw [settle_cons_of_error hverdict, settle_cons_of_ok hverdict',
          settle_cons_of_ok (hagain.trans hverdict')]
        exact ih hrest quota'
      | error e' =>
        -- Both fail on the child, and their two errors come in the other order.
        have hfirst : verdict (slot.withError e').element = .error e := hverdict
        rw [settle_cons_of_error hverdict, settle_cons_of_error hverdict',
          settle_cons_of_error (hagain.trans hverdict'), settle_cons_of_error hfirst]
        exact .cons (slot.reordered_withError e e') (ih hrest (quota' + 1))

/-- The children that are dropped are none of those that a scan takes. -/
def NoneMatchDropped (verdict : Element → Except ParseError α) (keep : Element → Bool)
    (slots : List (Slot ParseError)) : Prop :=
  ∀ slot ∈ slots, keep slot.element = false → ∃ e, verdict slot.element = .error e

variable {keep : Element → Bool}

theorem firstValues_filter (h : NoneMatchDropped verdict keep slots) (quota : Nat) :
    firstValues verdict quota (slots.filter fun slot => keep slot.element) =
      firstValues verdict quota slots := by
  unfold firstValues
  rw [List.filterMap_filter]
  congr 1
  apply List.filterMap_congr
  intro slot hslot
  cases hkeep : keep slot.element with
  | true => exact if_pos rfl
  | false =>
    obtain ⟨e, he⟩ := h slot hslot hkeep
    rw [he]
    exact if_neg Bool.false_ne_true

theorem settle_filter (h : NoneMatchDropped verdict keep slots) (quota : Nat) :
    settle verdict quota (slots.filter fun slot => keep slot.element) =
      (settle verdict quota slots).filter fun slot => keep slot.element := by
  induction quota, slots using scan_induction verdict with
  | zero slots => rw [settle_zero, settle_zero]
  | nil quota => rfl
  | ok quota slot slots value hverdict ih =>
    obtain ⟨hslot, hrest⟩ := List.forall_mem_cons.mp h
    have hkeep : keep slot.element = true := by
      by_contra hdrop
      obtain ⟨e, he⟩ := hslot (Bool.eq_false_iff.mpr hdrop)
      rw [hverdict] at he
      contradiction
    simp only [List.filter_cons, hkeep, if_true]
    rw [settle_cons_of_ok hverdict, settle_cons_of_ok hverdict, ih hrest]
  | error quota slot slots e hverdict ih =>
    obtain ⟨_, hrest⟩ := List.forall_mem_cons.mp h
    have hsame : keep (slot.withError e).element = keep slot.element := rfl
    rw [settle_cons_of_error hverdict]
    simp only [List.filter_cons, hsame]
    split
    · rw [settle_cons_of_error hverdict, ih hrest]
    · exact ih hrest

end Slot

/-! ## Steps that ignore each other -/

/-- A change of the scope leaves the text alone. -/
structure Scope.SparesText (change : Scope → Scope) : Prop where
  text : ∀ s, (change s).text = s.text
  take : ∀ s, { change s with text := none } = change { s with text := none }

/-- A change of the scope leaves the children alone. -/
structure Scope.SparesChildren (change : Scope → Scope) : Prop where
  element : ∀ s, (change s).element = s.element
  children : ∀ s, (change s).children = s.children
  put : ∀ s slots, { change s with children := slots } = change { s with children := slots }

/-- The same scope, with the errors of each child in any order. -/
structure Scope.Reordered (s s' : Scope) : Prop where
  element : s'.element = s.element
  attrs : s'.attrs = s.attrs
  children : List.Forall₂ Slot.Reordered s.children s'.children
  text : s'.text = s.text

namespace Scope.Reordered

theorem refl (s : Scope) : s.Reordered s :=
  ⟨rfl, rfl, Slot.forall₂_reordered_refl s.children, rfl⟩

theorem symm {s s' : Scope} (h : s.Reordered s') : s'.Reordered s :=
  ⟨h.element.symm, h.attrs.symm, h.children.flip.imp fun _ _ => Slot.Reordered.symm,
    h.text.symm⟩

end Scope.Reordered

namespace Rule

variable {tracing : Tracing} {rule : Rule α} {rule' : Rule β} {s : Scope}

/-- A change of the scope makes no difference to a rule: it ends as it would have, and leaves
what it would have left, with the change. -/
def Ignores (tracing : Tracing) (change : Scope → Scope) (rule : Rule α) : Prop :=
  ∀ s, (rule.eval tracing (change s)).outcome = (rule.eval tracing s).outcome ∧
    (rule.eval tracing (change s)).scope = change (rule.eval tracing s).scope

theorem Ignores.bind {change : Scope → Scope} {next : α → Rule β}
    (h : rule.Ignores tracing change) (hnext : ∀ value, (next value).Ignores tracing change) :
    (rule >>= next).Ignores tracing change := by
  intro s
  obtain ⟨houtcome, hscope⟩ := h s
  rw [eval_bind, eval_bind]
  cases hr : (rule.eval tracing s).outcome with
  | ok value =>
    rw [Run.andThen_of_ok (houtcome.trans hr), Run.andThen_of_ok hr, hscope]
    exact hnext value (rule.eval tracing s).scope
  | error e =>
    rw [Run.andThen_of_error (houtcome.trans hr), Run.andThen_of_error hr]
    exact ⟨rfl, hscope⟩

theorem ignores_pure (change : Scope → Scope) (value : α) :
    (Pure.pure value : Rule α).Ignores tracing change :=
  fun _ => ⟨rfl, rfl⟩

theorem ignores_fail (change : Scope → Scope) (message : String) :
    (fail message : Rule α).Ignores tracing change :=
  fun _ => ⟨rfl, rfl⟩

theorem ignores_readValue [ToString ε] (change : Scope → Scope) (read : String → Except ε α)
    (key value : String) : (readValue read key value).Ignores tracing change := by
  unfold readValue
  split
  · exact ignores_pure change _
  · exact ignores_fail change _

/-- Two steps, both run whatever the other gives, may change places: each ends as it would
have ended first, and they leave the same. -/
structure Commutes (tracing : Tracing) (s : Scope) (rule : Rule α) (rule' : Rule β) : Prop where
  outcome : (rule.eval tracing (rule'.eval tracing s).scope).outcome =
    (rule.eval tracing s).outcome
  outcome' : (rule'.eval tracing (rule.eval tracing s).scope).outcome =
    (rule'.eval tracing s).outcome
  scope : (rule'.eval tracing (rule.eval tracing s).scope).scope.Reordered
    (rule.eval tracing (rule'.eval tracing s).scope).scope

theorem Commutes.symm (h : Commutes tracing s rule rule') : Commutes tracing s rule' rule :=
  ⟨h.outcome', h.outcome, h.scope.symm⟩

/-- Two steps commute where each ignores the change that the other makes. -/
theorem Commutes.of_ignores {change change' : Scope → Scope}
    (hscope : ∀ s, (rule.eval tracing s).scope = change s)
    (hscope' : ∀ s, (rule'.eval tracing s).scope = change' s)
    (h : rule.Ignores tracing change') (h' : rule'.Ignores tracing change) :
    Commutes tracing s rule rule' where
  outcome := by
    rw [hscope']
    exact (h s).1
  outcome' := by
    rw [hscope]
    exact (h' s).1
  scope := by
    rw [hscope' (rule.eval tracing s).scope, hscope' s, (h s).2]
    exact .refl _

/-! ## Steps on a scope -/

/-- A step on the attributes, with those that it takes. -/
inductive AttrStep : {α : Type} → Reach → Rule α → Prop where
  | takeAttr (key : String) : AttrStep (.key key) (.takeAttr key)
  | attr (key : String) : AttrStep (.key key) (Rule.attr key)
  | attrEq (key expected : String) : AttrStep (.key key) (Rule.attrEq key expected)
  | attrRead {α ε : Type} [ToString ε] (read : String → Except ε α) (key : String) :
    AttrStep (.key key) (Rule.attrRead read key)
  | attrReadOpt {α ε : Type} [ToString ε] (read : String → Except ε α) (key : String) :
    AttrStep (.key key) (Rule.attrReadOpt read key)
  | dropAttr (key : String) : AttrStep (.key key) (Rule.dropAttr key)
  | dropAttrsFrom (start : String) : AttrStep (.start start) (.dropAttrsFrom start)

/-- A step on the text. -/
inductive TextStep : {α : Type} → Rule α → Prop where
  | takeText : TextStep .takeText
  | text : TextStep Rule.text
  | blankText : TextStep Rule.blankText

/-- A step on the children. -/
inductive ChildStep : {α : Type} → Rule α → Prop where
  | childrenAtMost {α : Type} (quota : Nat) (rule : Rule α) :
    ChildStep (.childrenAtMost quota rule)
  | childOpt {α : Type} (rule : Rule α) : ChildStep (Rule.childOpt rule)
  | child {α : Type} (rule : Rule α) : ChildStep (Rule.child rule)
  | childrenOpt {α : Type} (rule : Rule α) : ChildStep (Rule.childrenOpt rule)
  | children {α : Type} (rule : Rule α) : ChildStep (Rule.children rule)
  | dropChildrenNamed (name : String) : ChildStep (.dropChildrenNamed name)

section Steps

variable (tracing)

theorem scope_bind {next : α → Rule β}
    (h : ∀ value s, ((next value).eval tracing s).scope = s) (s : Scope) :
    ((rule >>= next).eval tracing s).scope = (rule.eval tracing s).scope := by
  rw [eval_bind]
  cases hr : (rule.eval tracing s).outcome with
  | ok value =>
    rw [Run.andThen_of_ok hr]
    exact h value (rule.eval tracing s).scope
  | error e => rw [Run.andThen_of_error hr]

theorem scope_readValue [ToString ε] (read : String → Except ε α) (key value : String)
    (s : Scope) : ((readValue read key value).eval tracing s).scope = s := by
  unfold readValue
  split <;> rfl

theorem scope_takeAttr (key : String) (s : Scope) :
    ((takeAttr key).eval tracing s).scope = (Reach.key key).take s :=
  congrArg Prod.snd (s.takeAttr_eq key)

theorem scope_attr (key : String) (s : Scope) :
    ((attr key).eval tracing s).scope = (Reach.key key).take s := by
  rw [← scope_takeAttr tracing]
  apply scope_bind
  intro value s
  cases value <;> rfl

theorem AttrStep.scope_eq {reach : Reach} (h : AttrStep reach rule) (s : Scope) :
    (rule.eval tracing s).scope = reach.take s := by
  cases h with
  | takeAttr key => exact scope_takeAttr tracing key s
  | attr key => exact scope_attr tracing key s
  | attrEq key expected =>
    rw [← scope_attr tracing]
    apply scope_bind
    intro value s
    split <;> rfl
  | attrRead read key =>
    rw [← scope_attr tracing]
    exact scope_bind tracing (scope_readValue tracing read key) s
  | attrReadOpt read key =>
    rw [← scope_takeAttr tracing]
    apply scope_bind
    intro value s
    cases value with
    | none => rfl
    | some value =>
      show ((readValue read key value >>= fun a => pure (some a)).eval tracing s).scope = s
      rw [scope_bind tracing (fun _ _ => rfl), scope_readValue]
  | dropAttr key =>
    rw [← scope_takeAttr tracing]
    exact scope_bind tracing (fun _ _ => rfl) s
  | dropAttrsFrom start => rfl

theorem TextStep.scope_eq (h : TextStep rule) (s : Scope) :
    (rule.eval tracing s).scope = { s with text := none } := by
  cases h with
  | takeText => rfl
  | text => rfl
  | blankText =>
    apply scope_bind
    intro value s
    split <;> rfl

/-- What a step on the children leaves of them depends on them alone. -/
theorem ChildStep.scope_eq (h : ChildStep rule) :
    ∃ left : List (Slot ParseError) → List (Slot ParseError),
      ∀ s, (rule.eval tracing s).scope = { s with children := left s.children } := by
  cases h with
  | childrenAtMost quota rule => exact ⟨_, scope_childrenAtMost tracing quota rule⟩
  | childOpt rule => exact ⟨_, scope_childOpt tracing rule⟩
  | child rule => exact ⟨_, scope_child tracing rule⟩
  | childrenOpt rule => exact ⟨_, scope_childrenAtMost tracing unlimited rule⟩
  | children rule => exact ⟨_, scope_children tracing rule⟩
  | dropChildrenNamed name => exact ⟨_, fun _ => rfl⟩

/-! ### What they ignore -/

variable {tracing} {change : Scope → Scope}

theorem ignores_takeAttr {key : String} (h : (Reach.key key).SparedBy change) :
    (takeAttr key).Ignores tracing change := by
  intro s
  rw [scope_takeAttr, scope_takeAttr]
  refine ⟨?_, h.take s⟩
  show Except.ok ((change s).takeAttr key).1 = Except.ok (s.takeAttr key).1
  rw [Scope.takeAttr_eq, Scope.takeAttr_eq]
  exact congrArg Except.ok (h.value? s)

theorem ignores_attr {key : String} (h : (Reach.key key).SparedBy change) :
    (attr key).Ignores tracing change := by
  apply (ignores_takeAttr h).bind
  intro value
  cases value with
  | none => exact ignores_fail change _
  | some value => exact ignores_pure change value

theorem AttrStep.ignores {reach : Reach} (h : AttrStep reach rule)
    (hspared : reach.SparedBy change) : rule.Ignores tracing change := by
  cases h with
  | takeAttr key => exact ignores_takeAttr hspared
  | attr key => exact ignores_attr hspared
  | attrEq key expected =>
    apply (ignores_attr hspared).bind
    intro value
    split
    · exact ignores_pure change ()
    · exact ignores_fail change _
  | attrRead read key => exact (ignores_attr hspared).bind (ignores_readValue change read key)
  | attrReadOpt read key =>
    apply (ignores_takeAttr hspared).bind
    intro value
    cases value with
    | none => exact ignores_pure change none
    | some value =>
      exact (ignores_readValue change read key value).bind fun a => ignores_pure change (some a)
  | dropAttr key => exact (ignores_takeAttr hspared).bind fun _ => ignores_pure change ()
  | dropAttrsFrom start => exact fun s => ⟨rfl, hspared.take s⟩

theorem ignores_text (h : Scope.SparesText change) : text.Ignores tracing change := by
  have htake : takeText.Ignores tracing change :=
    fun s => ⟨congrArg Except.ok (h.text s), h.take s⟩
  exact htake.bind fun value => ignores_pure change (value.getD "")

theorem TextStep.ignores (h : TextStep rule) (hspares : Scope.SparesText change) :
    rule.Ignores tracing change := by
  cases h with
  | takeText => exact fun s => ⟨congrArg Except.ok (hspares.text s), hspares.take s⟩
  | text => exact ignores_text hspares
  | blankText =>
    apply (ignores_text hspares).bind
    intro value
    split
    · exact ignores_pure change ()
    · exact ignores_fail change _

theorem ignores_childrenAtMost (quota : Nat) (rule : Rule α) (h : Scope.SparesChildren change) :
    (childrenAtMost quota rule).Ignores tracing change := by
  intro s
  rw [outcome_childrenAtMost, outcome_childrenAtMost, scope_childrenAtMost,
    scope_childrenAtMost, h.children]
  exact ⟨rfl, h.put s _⟩

theorem ignores_childOpt (rule : Rule α) (h : Scope.SparesChildren change) :
    (childOpt rule).Ignores tracing change :=
  (ignores_childrenAtMost 1 rule h).bind fun values => ignores_pure change values.head?

theorem ignores_missingChild (h : Scope.SparesChildren change) :
    (missingChild : Rule α).Ignores tracing change := by
  intro s
  refine ⟨?_, rfl⟩
  show Except.error (change s).missingChild = Except.error s.missingChild
  unfold Scope.missingChild Scope.lastErrors
  rw [h.element, h.children]

theorem ChildStep.ignores (h : ChildStep rule) (hspares : Scope.SparesChildren change) :
    rule.Ignores tracing change := by
  cases h with
  | childrenAtMost quota rule => exact ignores_childrenAtMost quota rule hspares
  | childOpt rule => exact ignores_childOpt rule hspares
  | child rule =>
    apply (ignores_childOpt rule hspares).bind
    intro value
    cases value with
    | none => exact ignores_missingChild hspares
    | some value => exact ignores_pure change value
  | childrenOpt rule => exact ignores_childrenAtMost unlimited rule hspares
  | children rule =>
    apply (ignores_childrenAtMost unlimited rule hspares).bind
    intro values
    split
    · exact ignores_missingChild hspares
    · exact ignores_pure change values
  | dropChildrenNamed name =>
    intro s
    refine ⟨rfl, ?_⟩
    show (change s).dropChildrenNamed name = change (s.dropChildrenNamed name)
    unfold Scope.dropChildrenNamed
    rw [hspares.children]
    exact hspares.put s _

end Steps

/-! ## Independent steps -/

/-- Two steps that are after different items of a scope. -/
inductive Independent (tracing : Tracing) (s : Scope) :
    {α β : Type} → Rule α → Rule β → Prop where
  | attrs {α β : Type} {rule : Rule α} {rule' : Rule β} {reach reach' : Reach}
    (h : AttrStep reach rule) (h' : AttrStep reach' rule') (hapart : reach.Apart reach') :
    Independent tracing s rule rule'
  | attrText {α β : Type} {rule : Rule α} {rule' : Rule β} {reach : Reach}
    (h : AttrStep reach rule) (h' : TextStep rule') : Independent tracing s rule rule'
  | attrChild {α β : Type} {rule : Rule α} {rule' : Rule β} {reach : Reach}
    (h : AttrStep reach rule) (h' : ChildStep rule') : Independent tracing s rule rule'
  | textChild {α β : Type} {rule : Rule α} {rule' : Rule β} (h : TextStep rule)
    (h' : ChildStep rule') : Independent tracing s rule rule'
  /-- Two scans, where no child that is left matches both rules. -/
  | scans {α β : Type} (quota quota' : Nat) {rule : Rule α} {rule' : Rule β}
    (h : ∀ slot ∈ s.children, rule.Matches tracing slot.element →
      ¬ rule'.Matches tracing slot.element) :
    Independent tracing s (.childrenAtMost quota rule) (.childrenAtMost quota' rule')
  /-- A scan and a name to drop, where no child of that name matches the rule. -/
  | scanDrop {α : Type} (quota : Nat) {rule : Rule α} {name : String}
    (h : ∀ slot ∈ s.children, slot.element.name = name →
      ¬ rule.Matches tracing slot.element) :
    Independent tracing s (.childrenAtMost quota rule) (.dropChildrenNamed name)
  | symm {α β : Type} {rule : Rule α} {rule' : Rule β} (h : Independent tracing s rule rule') :
    Independent tracing s rule' rule

theorem commutes_scans (quota quota' : Nat)
    (h : Slot.NoneMatchBoth (rule.verdict tracing) (rule'.verdict tracing) s.children) :
    Commutes tracing s (childrenAtMost quota rule) (childrenAtMost quota' rule') where
  outcome := by
    rw [outcome_childrenAtMost, outcome_childrenAtMost, scope_childrenAtMost]
    exact congrArg Except.ok (Slot.firstValues_settle h quota quota')
  outcome' := by
    rw [outcome_childrenAtMost, outcome_childrenAtMost, scope_childrenAtMost]
    exact congrArg Except.ok (Slot.firstValues_settle h.symm quota' quota)
  scope := by
    rw [scope_childrenAtMost, scope_childrenAtMost, scope_childrenAtMost, scope_childrenAtMost]
    exact ⟨rfl, rfl, Slot.settle_comm h quota quota', rfl⟩

theorem commutes_scan_drop (quota : Nat) {name : String}
    (h : Slot.NoneMatchDropped (rule.verdict tracing) (·.name != name) s.children) :
    Commutes tracing s (childrenAtMost quota rule) (dropChildrenNamed name) where
  outcome := by
    rw [outcome_childrenAtMost, outcome_childrenAtMost]
    exact congrArg Except.ok (Slot.firstValues_filter h quota)
  outcome' := rfl
  scope := by
    have hscope : ((childrenAtMost quota rule).eval tracing
          ((dropChildrenNamed name).eval tracing s).scope).scope =
        ((dropChildrenNamed name).eval tracing
          ((childrenAtMost quota rule).eval tracing s).scope).scope := by
      rw [scope_childrenAtMost, scope_childrenAtMost]
      exact congrArg (fun slots => { s with children := slots }) (Slot.settle_filter h quota)
    rw [hscope]
    exact .refl _

/-- Two steps that are after different items of a scope may change places. -/
theorem independent_commutes (h : Independent tracing s rule rule') :
    Commutes tracing s rule rule' := by
  induction h with
  | attrs h h' hapart =>
    exact .of_ignores (h.scope_eq tracing) (h'.scope_eq tracing) (h.ignores hapart.sparedBy)
      (h'.ignores hapart.symm.sparedBy)
  | attrText h h' =>
    exact .of_ignores (h.scope_eq tracing) (h'.scope_eq tracing)
      (h.ignores ⟨fun _ => rfl, fun _ => rfl⟩) (h'.ignores ⟨fun _ => rfl, fun _ => rfl⟩)
  | attrChild h h' =>
    obtain ⟨left, hleft⟩ := h'.scope_eq tracing
    exact .of_ignores (h.scope_eq tracing) hleft (h.ignores ⟨fun _ => rfl, fun _ => rfl⟩)
      (h'.ignores ⟨fun _ => rfl, fun _ => rfl, fun _ _ => rfl⟩)
  | textChild h h' =>
    obtain ⟨left, hleft⟩ := h'.scope_eq tracing
    exact .of_ignores (h.scope_eq tracing) hleft (h.ignores ⟨fun _ => rfl, fun _ => rfl⟩)
      (h'.ignores ⟨fun _ => rfl, fun _ => rfl, fun _ _ => rfl⟩)
  | scans quota quota' h =>
    apply commutes_scans
    intro slot hslot value value' hvalue hvalue'
    exact h slot hslot ⟨value, hvalue⟩ ⟨value', hvalue'⟩
  | @scanDrop α quota rule name h =>
    apply commutes_scan_drop
    intro slot hslot hname
    have hfails := h slot hslot (by simpa using hname)
    cases hverdict : rule.verdict tracing slot.element with
    | ok value => exact absurd ⟨value, hverdict⟩ hfails
    | error e => exact ⟨e, rfl⟩
  | symm _ ih => exact ih.symm

/-- Takes a note. -/
def note : Rule Unit :=
  matchName "note"

/-- Notes and entries are taken in either order.  The entry that can be neither has the errors
of both attempts, in another order. -/
theorem independent_commutes_register :
    Independent .silent register (childrenAtMost 2 note) (childrenAtMost 2 entryNumber) ∧
      ((childrenAtMost 2 note).eval .silent
        ((childrenAtMost 2 entryNumber).eval .silent register).scope).outcome = .ok [(), ()] ∧
      ((childrenAtMost 2 entryNumber).eval .silent
        ((childrenAtMost 2 note).eval .silent register).scope).outcome = .ok ["1", "3"] ∧
      ((childrenAtMost 2 entryNumber).eval .silent
          ((childrenAtMost 2 note).eval .silent register).scope).scope.Reordered
        ⟨register.element, [],
          [⟨entry "2" [⟨"void", "yes"⟩],
            [.remainingItems (entry "2" [⟨"void", "yes"⟩]) [⟨"void", "yes"⟩] [] none,
              .other "Element name is not note"]⟩, ⟨entry "4" [], []⟩], none⟩ := by
  have hindependent :
      Independent .silent register (childrenAtMost 2 note) (childrenAtMost 2 entryNumber) := by
    refine .scans 2 2 ?_
    intro slot hslot hnote hentry
    obtain ⟨_, hnote⟩ := hnote
    obtain ⟨_, hentry⟩ := hentry
    simp only [register, List.mem_cons, List.not_mem_nil, or_false] at hslot
    rcases hslot with rfl | rfl | rfl | rfl | rfl | rfl
    · cases hentry
    · cases hnote
    · cases hnote
    · cases hnote
    · cases hentry
    · cases hnote
  obtain ⟨hnotes, hentries, hscope⟩ := independent_commutes hindependent
  refine ⟨hindependent, ?_, ?_, ?_⟩
  · rw [hnotes]
    rfl
  · rw [hentries]
    rfl
  · exact hscope

end Rule

end ElementGrammar
