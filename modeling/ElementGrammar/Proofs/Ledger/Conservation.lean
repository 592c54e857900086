import Mathlib.Data.List.Forall2
import Mathlib.Data.List.Nodup
import Mathlib.Data.List.Sigma
import ElementGrammar.Proofs.Ledger.Basic

/-!
# Conservation of items

A rule takes items out of a scope one way or another: it returns or drops
attributes, matches or drops children, takes the text.  This module proves that
none of these ways loses an item or takes one twice, whatever rule is run and
wherever it fails.

There are four groups.

* The books of a run are those of the run.  `Rule.account_follows` says that the
  ledger ends with the value or error of `Rule.eval` and with its scope.
* Every step moves items from what is left into the log.  `Ledger.SameItems` is
  what a step keeps, `Ledger.takeAttr_sameItems` and its neighbours are the
  steps, and `Ledger.tally_perm` is the step of a whole scan of children.
* `Rule.account_keeps` is the induction over rules.  It carries
  `Ledger.Balanced` to every point of the run, also through alternatives that
  fail and into the books of children.
* `Ledger.Balanced.settled_iff` turns the balance into the question that a run
  ends with, whether anything is left.  `Rule.account_conserves` puts the four
  together.
-/

namespace ElementGrammar

variable {α β : Type}

/-! ## The books of a run are those of the run -/

/-- An account that ends as a run does, on the same scope. -/
def Account.Follows (a : Account α) (r : Run α) : Prop :=
  a.outcome = r.outcome ∧ a.ledger.scope = r.scope

namespace Ledger

/-- Forgetting places and looking for the first attribute of a name can be done
in either order. -/
theorem find?_map_fst (attrs : List (Attribute × Nat)) (key : String) :
    (attrs.map (·.1)).find? (·.name == key) =
      (attrs.find? (·.1.name == key)).map (·.1) := by
  rw [List.find?_map]
  rfl

theorem eraseP_map_fst (attrs : List (Attribute × Nat)) (key : String) :
    (attrs.map (·.1)).eraseP (·.name == key) =
      (attrs.eraseP (·.1.name == key)).map (·.1) := by
  rw [List.eraseP_map]
  rfl

@[simp] theorem scope_ofElement (e : Element) : (ofElement e).scope = Scope.ofElement e := by
  simp [scope, ofElement, Scope.ofElement]

theorem takeAttr_follows (l : Ledger) (key : String) :
    (l.takeAttr key).1 = (l.scope.takeAttr key).1 ∧
      (l.takeAttr key).2.scope = (l.scope.takeAttr key).2 := by
  unfold takeAttr Scope.takeAttr Attributes.named?
  rw [show l.scope.attrs = l.attrs.map (·.1) from rfl, find?_map_fst, eraseP_map_fst]
  cases hfind : l.attrs.find? (·.1.name == key) with
  | none => exact ⟨rfl, rfl⟩
  | some a => exact ⟨rfl, rfl⟩

theorem dropAttrsFrom_scope (l : Ledger) (start : String) :
    (l.dropAttrsFrom start).scope = l.scope.dropAttrsFrom start := by
  simp only [dropAttrsFrom, scope, Scope.dropAttrsFrom, List.filter_map]
  rfl

theorem dropChildrenNamed_scope (l : Ledger) (name : String) :
    (l.dropChildrenNamed name).scope = l.scope.dropChildrenNamed name := by
  simp only [dropChildrenNamed, scope, Scope.dropChildrenNamed, List.filter_map]
  rfl

/-- A rule that ends alike with and without books matches the same children. -/
theorem tally_follows (tracing : Tracing) (parent : Element) {rule : Element → Account α}
    {rule' : Element → Run α} (h : ∀ e, (rule e).outcome = (rule' e).outcome) (quota : Nat)
    (slots : List (Slot ParseError × Nat)) :
    (tally rule quota slots).values =
        (Scope.scan tracing parent rule' quota (slots.map (·.1))).values ∧
      (tally rule quota slots).kept.map (·.1) =
        (Scope.scan tracing parent rule' quota (slots.map (·.1))).kept := by
  induction slots generalizing quota with
  | nil => cases quota <;> exact ⟨rfl, rfl⟩
  | cons slot slots ih =>
    cases quota with
    | zero => exact ⟨rfl, rfl⟩
    | succ quota =>
      simp only [tally, List.map_cons, Scope.scan, h]
      cases (rule' slot.1.element).outcome with
      | ok value =>
        obtain ⟨hvalues, hkept⟩ := ih quota
        exact ⟨by rw [← hvalues], hkept⟩
      | error e =>
        obtain ⟨hvalues, hkept⟩ := ih (quota + 1)
        exact ⟨hvalues, by rw [List.map_cons, hkept]⟩

theorem tryVariants_follows (tracing : Tracing) (l : Ledger) (tried : List ParseError)
    {rules : List (Ledger → Account α)} {rules' : List (Scope → Run α)}
    (h : List.Forall₂ (fun rule rule' => (rule l).Follows (rule' l.scope)) rules rules') :
    (l.tryVariants tried rules).Follows (l.scope.tryVariants tracing tried rules') := by
  induction h generalizing tried with
  | nil => exact ⟨rfl, rfl⟩
  | @cons rule rule' _ _ hrule _ ih =>
    rw [tryVariants, hrule.1]
    cases hr : (rule' l.scope).outcome with
    | ok value =>
      rw [Scope.tryVariants_cons_of_ok hr]
      exact ⟨hrule.1.trans hr, hrule.2⟩
    | error e =>
      rw [Scope.tryVariants_cons_of_error hr]
      exact ih _

end Ledger

theorem Account.andThen_follows {a : Account β} {r : Run β} (h : a.Follows r)
    {next : β → Ledger → Account α} {next' : β → Scope → Run α}
    (hnext : ∀ value l, (next value l).Follows (next' value l.scope)) :
    (a.andThen next).Follows (r.andThen next') := by
  unfold Account.andThen Run.andThen
  rw [h.1]
  cases r.outcome with
  | error e => exact ⟨rfl, h.2⟩
  | ok value =>
    have hv := hnext value a.ledger
    rw [h.2] at hv
    exact hv

theorem Account.drained_follows {a : Account α} {r : Run α} (h : a.Follows r) :
    a.drained.Follows r.drained := by
  unfold Account.drained Run.drained
  rw [h.1, h.2]
  cases hr : r.outcome with
  | error e => exact h
  | ok value =>
    cases hd : r.scope.ensureDrained with
    | ok _ => exact h
    | error e => exact ⟨rfl, h.2⟩

/-- Keeping books changes nothing: neither the value or error of a rule nor what
it leaves of the scope. -/
theorem Rule.account_follows (tracing : Tracing) (rule : Rule α) (l : Ledger) :
    (rule.account l).Follows (rule.eval tracing l.scope) := by
  induction rule generalizing l with
  | pure | fail | element | scope | takeText | ensureDrained | missingChild =>
    exact ⟨rfl, rfl⟩
  | bind rule next ih ihNext => exact Account.andThen_follows (ih l) ihNext
  | takeAttr key =>
    obtain ⟨hvalue, hscope⟩ := l.takeAttr_follows key
    exact ⟨congrArg Except.ok hvalue, hscope⟩
  | dropAttrsFrom start => exact ⟨rfl, l.dropAttrsFrom_scope start⟩
  | dropChildrenNamed name => exact ⟨rfl, l.dropChildrenNamed_scope name⟩
  | childrenAtMost quota rule ih =>
    have hchild (e : Element) :
        (rule.account (Ledger.ofElement e)).drained.outcome =
          (rule.eval tracing (Scope.ofElement e)).drained.outcome := by
      have he := ih (Ledger.ofElement e)
      rw [Ledger.scope_ofElement] at he
      exact (Account.drained_follows he).1
    obtain ⟨hvalues, hkept⟩ :=
      Ledger.tally_follows tracing l.element hchild quota l.children
    refine ⟨congrArg Except.ok hvalues, ?_⟩
    simp only [account, eval, Ledger.tryChildren, Scope.tryChildren, Ledger.scope]
    rw [hkept]
  | choice count rules ih =>
    apply Ledger.tryVariants_follows
    rw [List.forall₂_iff_get]
    refine ⟨by simp, ?_⟩
    intro i h₁ h₂
    simpa using ih _ l
  | attempt rule ih =>
    obtain ⟨houtcome, hscope⟩ := ih l
    exact ⟨congrArg Except.ok houtcome, hscope⟩

/-! ## Taking items out moves them into the log -/

namespace Ledger

/-- Every item of the element is in the log or left, and no item is there
twice. -/
def Balanced (l : Ledger) : Prop :=
  (l.log ++ l.remaining).Perm l.element.items

/-- A ledger of the same element with the same items, in the log or left. -/
def SameItems (l l' : Ledger) : Prop :=
  l'.element = l.element ∧ (l'.log ++ l'.remaining).Perm (l.log ++ l.remaining)

namespace SameItems

variable {l l' l'' : Ledger}

theorem refl (l : Ledger) : l.SameItems l :=
  ⟨rfl, List.Perm.refl _⟩

theorem trans (h : l.SameItems l') (h' : l'.SameItems l'') : l.SameItems l'' :=
  ⟨h'.1.trans h.1, h'.2.trans h.2⟩

theorem balanced (h : l.SameItems l') (hl : l.Balanced) : l'.Balanced := by
  unfold Balanced
  rw [h.1]
  exact h.2.trans hl

/-- Attributes that move into the log. -/
theorem of_attrs (l : Ledger) {taken rest : List (Attribute × Nat)}
    (h : (taken ++ rest).Perm l.attrs) :
    l.SameItems { l with attrs := rest, log := l.log ++ taken.map Item.ofAttr } := by
  refine ⟨rfl, ?_⟩
  have hmap := h.map Item.ofAttr
  rw [List.map_append] at hmap
  simp only [remaining, List.append_assoc]
  rw [← List.append_assoc (taken.map _)]
  exact (hmap.append_right _).append_left _

/-- Children that move into the log. -/
theorem of_children (l : Ledger) {taken : List Item} {rest : List (Slot ParseError × Nat)}
    (h : (taken ++ rest.map Item.ofSlot).Perm (l.children.map Item.ofSlot)) :
    l.SameItems { l with children := rest, log := l.log ++ taken } := by
  refine ⟨rfl, ?_⟩
  simp only [remaining, List.append_assoc]
  refine List.Perm.append_left _ ?_
  refine (List.perm_append_comm_assoc _ _ _).trans ?_
  rw [← List.append_assoc taken]
  exact (h.append_right _).append_left _

/-- A text that moves into the log. -/
theorem of_text (l : Ledger) :
    l.SameItems { l with text := none, log := l.log ++ Item.ofText l.text } := by
  refine ⟨rfl, ?_⟩
  simp only [remaining, List.append_assoc]
  refine List.Perm.append_left _ ?_
  rw [show Item.ofText none = [] from rfl, List.append_nil, ← List.append_assoc (l.attrs.map _)]
  exact List.perm_append_comm

end SameItems

/-- The first of several things with a property, and the others. -/
theorem perm_cons_eraseP {γ : Type} {p : γ → Bool} {xs : List γ} {x : γ}
    (h : xs.find? p = some x) : (x :: xs.eraseP p).Perm xs := by
  obtain ⟨hx, before, rest, rfl, hbefore⟩ := List.find?_eq_some_iff_append.mp h
  have hnot : ∀ y ∈ before, ¬ p y = true := fun y hy => by simpa using hbefore y hy
  rw [List.eraseP_append_right _ hnot, List.eraseP_cons_of_pos hx]
  exact List.perm_middle.symm

theorem takeAttr_sameItems (l : Ledger) (key : String) : l.SameItems (l.takeAttr key).2 := by
  unfold takeAttr
  cases hfind : l.attrs.find? (·.1.name == key) with
  | none => exact SameItems.refl l
  | some a =>
    have hperm : ([a] ++ l.attrs.eraseP (·.1.name == key)).Perm l.attrs :=
      perm_cons_eraseP hfind
    exact SameItems.of_attrs l hperm

theorem dropAttrsFrom_sameItems (l : Ledger) (start : String) :
    l.SameItems (l.dropAttrsFrom start) :=
  SameItems.of_attrs l (List.filter_append_perm _ _)

theorem dropChildrenNamed_sameItems (l : Ledger) (name : String) :
    l.SameItems (l.dropChildrenNamed name) := by
  refine SameItems.of_children l ?_
  rw [← List.map_append]
  exact (List.filter_append_perm _ _).map _

/-- A child is taken or kept, and the errors that it is kept with change
nothing. -/
theorem tally_perm (rule : Element → Account α) (quota : Nat)
    (slots : List (Slot ParseError × Nat)) :
    ((tally rule quota slots).taken ++ (tally rule quota slots).kept.map Item.ofSlot).Perm
      (slots.map Item.ofSlot) := by
  induction slots generalizing quota with
  | nil => cases quota <;> exact List.Perm.refl _
  | cons slot slots ih =>
    cases quota with
    | zero => exact List.Perm.refl _
    | succ quota =>
      rw [tally]
      cases (rule slot.1.element).outcome with
      | ok value => exact (ih quota).cons _
      | error e => exact List.perm_middle.trans ((ih (quota + 1)).cons _)

/-! ## A ledger at the start and at the end -/

theorem remaining_ofElement (e : Element) : (ofElement e).remaining = e.items := by
  unfold remaining ofElement Element.items
  rw [List.zipIdx_map, List.map_map]
  rfl

theorem balanced_ofElement (e : Element) : (ofElement e).Balanced := by
  unfold Balanced
  rw [remaining_ofElement]
  exact List.Perm.refl _

theorem remaining_eq_nil_iff (l : Ledger) :
    l.remaining = [] ↔ l.scope.isDrained = true := by
  simp only [remaining, Scope.isDrained, scope, Item.ofText]
  cases l.text <;> simp

/-- Every item of the element is in the log exactly once. -/
def Settled (l : Ledger) : Prop :=
  ∀ item ∈ l.element.items, l.log.count item = 1

end Ledger

theorem Item.ofAttr_injective : Function.Injective Item.ofAttr := by
  intro a b h
  injection h with hplace ha
  exact Prod.ext ha hplace

theorem nodup_zipIdx {γ : Type} (xs : List γ) : xs.zipIdx.Nodup :=
  List.Nodup.of_map _ (List.nodup_zipIdx_map_snd xs)

/-- No two items of an element are equal: their places differ. -/
theorem Element.items_nodup (e : Element) : e.items.Nodup := by
  have hattrs : (e.attrs.zipIdx.map Item.ofAttr).Nodup :=
    (nodup_zipIdx e.attrs).map Item.ofAttr_injective
  have hchildren : (e.children.zipIdx.map fun c => Item.child c.2 c.1).Nodup := by
    refine (nodup_zipIdx e.children).map ?_
    intro a b h
    injection h with hplace he
    exact Prod.ext he hplace
  have htext : (Item.ofText e.text).Nodup := by
    cases e.text <;> simp [Item.ofText]
  rw [Element.items, List.nodup_append', List.nodup_append']
  refine ⟨⟨hattrs, hchildren, ?_⟩, htext, ?_⟩
  · intro item h₁ h₂
    obtain ⟨a, _, rfl⟩ := List.mem_map.mp h₁
    obtain ⟨c, _, hc⟩ := List.mem_map.mp h₂
    cases hc
  · intro item h₁ h₂
    obtain ⟨t, _, rfl⟩ := List.mem_map.mp h₂
    rcases List.mem_append.mp h₁ with h | h
    · obtain ⟨a, _, ha⟩ := List.mem_map.mp h
      cases ha
    · obtain ⟨c, _, hc⟩ := List.mem_map.mp h
      cases hc

/-- Where the books balance, every item is in the log once just where nothing is
left. -/
theorem Ledger.Balanced.settled_iff {l : Ledger} (h : l.Balanced) :
    l.Settled ↔ l.remaining = [] := by
  have hcount (item : Item) :
      l.log.count item + l.remaining.count item = l.element.items.count item := by
    rw [← List.count_append]
    exact h.count_eq item
  constructor
  · intro hsettled
    rw [List.eq_nil_iff_forall_not_mem]
    intro item hmem
    have hitem : item ∈ l.element.items := h.mem_iff.mp (List.mem_append_right _ hmem)
    have hone := List.count_eq_one_of_mem l.element.items_nodup hitem
    have hpos := List.count_pos_iff.mpr hmem
    have hlog := hsettled item hitem
    have := hcount item
    omega
  · intro hnil item hitem
    have hone := List.count_eq_one_of_mem l.element.items_nodup hitem
    have := hcount item
    rw [hnil, List.count_nil] at this
    omega

/-! ## What a run keeps -/

/-- The account of a run on `l`: the items of `l` are all there at the end, the
books balance at every point, and a child that matched has nothing left. -/
structure Account.Keeps (a : Account α) (l : Ledger) : Prop where
  last : l.SameItems a.ledger
  points : ∀ p ∈ a.points, p.Balanced
  closed : ∀ p ∈ a.closed, p.Balanced ∧ p.remaining = []

namespace Account.Keeps

variable {l : Ledger}

theorem after {a : Account α} {b : Account β} (ha : a.Keeps l) {l' : Ledger}
    (hb : b.Keeps l') (h : l'.SameItems l) : (a.after b).Keeps l' where
  last := h.trans ha.last
  points := fun p hp => (List.mem_append.mp hp).elim (hb.points p) (ha.points p)
  closed := fun p hp => (List.mem_append.mp hp).elim (hb.closed p) (ha.closed p)

theorem settle {l' : Ledger} (hl : l.Balanced) (h : l.SameItems l')
    (outcome : Except ParseError α) : (l'.settle outcome).Keeps l where
  last := h
  points := by
    intro p hp
    rw [List.mem_singleton.mp hp]
    exact h.balanced hl
  closed := by simp [Ledger.settle]

theorem andThen {a : Account β} (ha : a.Keeps l) {next : β → Ledger → Account α}
    (hnext : ∀ value, (next value a.ledger).Keeps a.ledger) : (a.andThen next).Keeps l := by
  unfold Account.andThen
  cases a.outcome with
  | ok value => exact (hnext value).after ha ha.last
  | error e => exact ⟨ha.last, ha.points, ha.closed⟩

theorem drained {a : Account α} (ha : a.Keeps l) : a.drained.Keeps l := by
  unfold Account.drained
  repeat' split
  all_goals exact ⟨ha.last, ha.points, ha.closed⟩

end Account.Keeps

theorem Account.remaining_eq_nil_of_drained {a : Account α} {value : α}
    (h : a.drained.outcome = .ok value) : a.drained.ledger.remaining = [] := by
  rw [Ledger.remaining_eq_nil_iff]
  unfold Account.drained Scope.ensureDrained at h ⊢
  cases ha : a.outcome with
  | error e => simp [ha] at h
  | ok v => by_cases hd : a.ledger.scope.isDrained = true <;> simp_all

namespace Ledger

/-- The books of the children that a rule is tried on balance. -/
theorem tally_keeps {rule : Element → Account α}
    (h : ∀ e, (rule e).Keeps (ofElement e))
    (hmatched : ∀ e value, (rule e).outcome = .ok value → (rule e).ledger.remaining = [])
    (quota : Nat) (slots : List (Slot ParseError × Nat)) :
    (∀ p ∈ (tally rule quota slots).points, p.Balanced) ∧
      ∀ p ∈ (tally rule quota slots).closed, p.Balanced ∧ p.remaining = [] := by
  induction slots generalizing quota with
  | nil => cases quota <;> simp [tally]
  | cons slot slots ih =>
    cases quota with
    | zero => simp [tally]
    | succ quota =>
      have hchild := h slot.1.element
      rw [tally]
      cases hr : (rule slot.1.element).outcome with
      | ok value =>
        obtain ⟨hpoints, hclosed⟩ := ih quota
        have hlast := hchild.last.balanced (balanced_ofElement _)
        have hnil := hmatched _ _ hr
        constructor
        · intro p hp
          exact (List.mem_append.mp hp).elim (hchild.points p) (hpoints p)
        · intro p hp
          rcases List.mem_append.mp hp with hp | hp
          · exact hchild.closed p hp
          · rcases List.mem_cons.mp hp with rfl | hp
            · exact ⟨hlast, hnil⟩
            · exact hclosed p hp
      | error e =>
        obtain ⟨hpoints, hclosed⟩ := ih (quota + 1)
        constructor
        · intro p hp
          exact (List.mem_append.mp hp).elim (hchild.points p) (hpoints p)
        · intro p hp
          exact (List.mem_append.mp hp).elim (hchild.closed p) (hclosed p)

theorem tryChildren_keeps {l : Ledger} (hl : l.Balanced) {rule : Element → Account α}
    (h : ∀ e, (rule e).Keeps (ofElement e))
    (hmatched : ∀ e value, (rule e).outcome = .ok value → (rule e).ledger.remaining = [])
    (quota : Nat) : (l.tryChildren quota rule).Keeps l := by
  obtain ⟨hpoints, hclosed⟩ := tally_keeps h hmatched quota l.children
  have hlast := SameItems.of_children l (tally_perm rule quota l.children)
  refine ⟨hlast, ?_, hclosed⟩
  intro p hp
  rcases List.mem_append.mp hp with hp | hp
  · exact hpoints p hp
  · rw [List.mem_singleton.mp hp]
    exact hlast.balanced hl

theorem tryVariants_keeps {l : Ledger} (hl : l.Balanced) (tried : List ParseError)
    {rules : List (Ledger → Account α)} (h : ∀ rule ∈ rules, (rule l).Keeps l) :
    (l.tryVariants tried rules).Keeps l := by
  induction rules generalizing tried with
  | nil => exact Account.Keeps.settle hl (SameItems.refl l) _
  | cons rule rules ih =>
    have hrule := h rule List.mem_cons_self
    rw [tryVariants]
    cases (rule l).outcome with
    | ok value => exact hrule
    | error e =>
      have hrest := ih (tried ++ [e]) fun r hr => h r (List.mem_cons_of_mem _ hr)
      exact hrest.after hrule (SameItems.refl l)

end Ledger

/-- No step of a rule loses an item, and none takes an item twice. -/
theorem Rule.account_keeps (rule : Rule α) {l : Ledger} (hl : l.Balanced) :
    (rule.account l).Keeps l := by
  induction rule generalizing l with
  | pure | fail | element | scope | ensureDrained | missingChild =>
    exact Account.Keeps.settle hl (Ledger.SameItems.refl l) _
  | bind rule next ih ihNext =>
    have hrule := ih hl
    exact hrule.andThen fun value => ihNext value (hrule.last.balanced hl)
  | takeAttr key => exact Account.Keeps.settle hl (l.takeAttr_sameItems key) _
  | dropAttrsFrom start => exact Account.Keeps.settle hl (l.dropAttrsFrom_sameItems start) _
  | takeText => exact Account.Keeps.settle hl (Ledger.SameItems.of_text l) _
  | dropChildrenNamed name =>
    exact Account.Keeps.settle hl (l.dropChildrenNamed_sameItems name) _
  | childrenAtMost quota rule ih =>
    refine Ledger.tryChildren_keeps hl ?_ ?_ quota
    · exact fun e => (ih (Ledger.balanced_ofElement e)).drained
    · exact fun e value h => Account.remaining_eq_nil_of_drained h
  | choice count rules ih =>
    refine Ledger.tryVariants_keeps hl [] ?_
    intro r hr
    obtain ⟨i, rfl⟩ := List.mem_ofFn.mp hr
    exact ih i hl
  | attempt rule ih =>
    have hrule := ih hl
    exact ⟨hrule.last, hrule.points, hrule.closed⟩

/-! ## Conservation -/

/-- A run takes everything just where the books of the rule hold every item
once. -/
theorem Rule.run_ok_iff_settled (tracing : Tracing) (rule : Rule α) (e : Element) (value : α) :
    (rule.run tracing e).outcome = .ok value ↔
      (rule.eval tracing (Scope.ofElement e)).outcome = .ok value ∧
        (rule.account (Ledger.ofElement e)).ledger.Settled := by
  have hkeeps := rule.account_keeps (Ledger.balanced_ofElement e)
  have hfollows := (rule.account_follows tracing (Ledger.ofElement e)).2
  rw [Ledger.scope_ofElement] at hfollows
  rw [(hkeeps.last.balanced (Ledger.balanced_ofElement e)).settled_iff,
    Ledger.remaining_eq_nil_iff, hfollows]
  exact Run.drained_eq_ok_iff

/-- No item is lost and none is taken twice.  The books are those of the run
itself: they end with its value or error and with its scope.  At every point on
the way, in the scope of the element and in every scope that was opened, the log
and what is left are together the items of the element.  So the element is read
where the rule matches and every item is in the log once, and so it is for every
child that matched. -/
theorem Rule.account_conserves (tracing : Tracing) (rule : Rule α) (e : Element) :
    let run := rule.eval tracing (Scope.ofElement e)
    let books := rule.account (Ledger.ofElement e)
    (books.outcome = run.outcome ∧ books.ledger.scope = run.scope ∧
        books.ledger.element = e) ∧
      (∀ p ∈ books.ledger :: books.points,
        (p.log ++ p.remaining).Perm p.element.items) ∧
      (∀ value, (rule.run tracing e).outcome = .ok value ↔
        run.outcome = .ok value ∧ ∀ item ∈ e.items, books.ledger.log.count item = 1) ∧
      ∀ p ∈ books.closed, ∀ item ∈ p.element.items, p.log.count item = 1 := by
  have hstart := Ledger.balanced_ofElement e
  have hkeeps := rule.account_keeps hstart
  have helement : (rule.account (Ledger.ofElement e)).ledger.element = e := hkeeps.last.1
  obtain ⟨houtcome, hscope⟩ := rule.account_follows tracing (Ledger.ofElement e)
  rw [Ledger.scope_ofElement] at houtcome hscope
  refine ⟨⟨houtcome, hscope, helement⟩, ?_, ?_, ?_⟩
  · intro p hp
    rcases List.mem_cons.mp hp with rfl | hp
    · exact hkeeps.last.balanced hstart
    · exact hkeeps.points p hp
  · intro value
    have hiff := rule.run_ok_iff_settled tracing e value
    unfold Ledger.Settled at hiff
    rwa [helement] at hiff
  · intro p hp
    obtain ⟨hbalanced, hnil⟩ := hkeeps.closed p hp
    exact hbalanced.settled_iff.mpr hnil

/-- An element with two attributes of one name and a child with a text. -/
def twinAttributes : Element :=
  ⟨"shape", [⟨"k", "1"⟩, ⟨"k", "2"⟩], [⟨"note", [], [], some "x"⟩], none⟩

/-- Takes an attribute in vain, and then the same attribute and the child. -/
def retriedRule : Rule (List String) :=
  .oneOf [.bind (.takeAttr "k") fun _ => .fail "no", .bind (.attr "k") fun _ =>
    .childrenOpt .text]

/-- What the alternative that failed took is not in the log.  The child is, and
the second attribute of the name is left. -/
theorem Rule.account_conserves_retried :
    let books := retriedRule.account (Ledger.ofElement twinAttributes)
    (books.ledger.log = [.attr 0 ⟨"k", "1"⟩, .child 0 ⟨"note", [], [], some "x"⟩] ∧
        books.ledger.remaining = [.attr 1 ⟨"k", "2"⟩]) ∧
      ∀ p ∈ books.ledger :: books.points,
        (p.log ++ p.remaining).Perm p.element.items :=
  ⟨by decide, (Rule.account_conserves .silent retriedRule twinAttributes).2.1⟩

end ElementGrammar
