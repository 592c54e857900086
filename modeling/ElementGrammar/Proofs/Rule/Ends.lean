import ElementGrammar.Proofs.Rule.Read

/-!
# How a reading ends

`Rule.Ends` is that a rule has a value, with a condition on the value and on what is left.
There is one equivalence for each combinator, so a rule unfolds into what it asks of an
element.

* The first group are the rules that take an attribute, a text or nothing.
* Rules on children come with a bound on what is left.  A rule that reads elements of one
  name only (`Rule.Named`) takes out the children of that name, all of them where none may
  be left: `Rule.ends_childrenAtMost_iff`, and the lemmas below it for one child, for an
  optional one and for several.
* Of alternatives the first to match is committed, though it may leave what another one
  would take.  Where each alternative that ends well is the only one to match at all, a
  choice ends as any of its alternatives does: `Rule.ends_oneOf_iff`.
-/

namespace ElementGrammar

variable {α β ε : Type}

theorem Rest.isDrained_iff (x : Rest) :
    x.isDrained = true ↔ x.attrs.Among [] ∧ NamesIn [] x.children ∧ x.text = none := by
  simp [isDrained, and_assoc]

theorem Rest.dropAttr_of_value?_none {x : Rest} {key : String}
    (h : x.attrs.value? key = none) : x.dropAttr key = x := by
  rw [dropAttr, Attributes.without_of_value?_none h]

theorem Rest.dropNamed_of_named_nil {x : Rest} {name : String}
    (h : named name x.children = []) : x.dropNamed name = x := by
  rw [dropNamed, others_of_named_nil h]

namespace Rule

variable {rule : Rule α} {x : Rest} {P Q : α → Rest → Prop}

/-- The rule has a value, and the value and what is left then are as `P` says. -/
def Ends (rule : Rule α) (x : Rest) (P : α → Rest → Prop) : Prop :=
  ∃ value y, rule.read x = some (value, y) ∧ P value y

theorem ends_congr (h : ∀ value y, P value y ↔ Q value y) :
    rule.Ends x P ↔ rule.Ends x Q := by
  unfold Ends
  simp only [h]

/-- A rule reads a whole element where it has a value and leaves nothing. -/
theorem reads_iff_ends {e : Element} {value : α} :
    rule.Reads e value ↔
      rule.Ends (.ofElement e) fun v y => v = value ∧ y.isDrained = true := by
  unfold Reads Ends
  cases rule.read (.ofElement e) with
  | none => simp [Rest.whole]
  | some r =>
    obtain ⟨v, y⟩ := r
    simp [Rest.whole, and_comm]

/-! ## Rules that take an attribute, a text or nothing -/

theorem ends_iff_of_read_some {value : α} {y : Rest} (h : rule.read x = some (value, y)) :
    rule.Ends x P ↔ P value y := by
  simp [Ends, h]

theorem not_ends_of_read_none (h : rule.read x = none) : ¬ rule.Ends x P := by
  simp [Ends, h]

@[simp] theorem ends_pure (value : α) : (Pure.pure value : Rule α).Ends x P ↔ P value x :=
  ends_iff_of_read_some rfl

@[simp] theorem ends_bind {rule : Rule β} {next : β → Rule α} :
    (rule >>= next).Ends x P ↔ rule.Ends x fun value y => (next value).Ends y P := by
  show (∃ v z, ((rule.read x).bind fun r => (next r.1).read r.2) = some (v, z) ∧ P v z) ↔ _
  unfold Ends
  cases rule.read x with
  | none => simp
  | some r =>
    obtain ⟨value, y⟩ := r
    simp

@[simp] theorem ends_fail (message : String) : (fail message : Rule α).Ends x P ↔ False :=
  iff_false_intro (not_ends_of_read_none rfl)

@[simp] theorem ends_missingChild : (missingChild : Rule α).Ends x P ↔ False :=
  iff_false_intro (not_ends_of_read_none rfl)

@[simp] theorem ends_element {P : Element → Rest → Prop} :
    element.Ends x P ↔ P x.element x :=
  ends_iff_of_read_some rfl

@[simp] theorem ends_takeAttr {P : Option String → Rest → Prop} (key : String) :
    (takeAttr key).Ends x P ↔ P (x.attrs.value? key) (x.dropAttr key) :=
  ends_iff_of_read_some rfl

@[simp] theorem ends_dropAttrsFrom {P : Unit → Rest → Prop} (start : String) :
    (Rule.dropAttrsFrom start).Ends x P ↔ P () (x.dropAttrsFrom start) :=
  ends_iff_of_read_some rfl

@[simp] theorem ends_takeText {P : Option String → Rest → Prop} :
    takeText.Ends x P ↔ P x.text x.dropText :=
  ends_iff_of_read_some rfl

@[simp] theorem ends_dropChildrenNamed {P : Unit → Rest → Prop} (name : String) :
    (dropChildrenNamed name).Ends x P ↔ P () (x.dropNamed name) :=
  ends_iff_of_read_some rfl

@[simp] theorem ends_ensureDrained {P : Unit → Rest → Prop} :
    ensureDrained.Ends x P ↔ x.isDrained = true ∧ P () x := by
  by_cases h : x.isDrained = true
  · have hread : ensureDrained.read x = some ((), x) := if_pos h
    rw [ends_iff_of_read_some hread, and_iff_right h]
  · have hread : ensureDrained.read x = none := if_neg h
    exact iff_of_false (not_ends_of_read_none hread) fun hends => h hends.1

@[simp] theorem ends_ite {p : Prop} [Decidable p] {rule' : Rule α} :
    (if p then rule else rule').Ends x P ↔ if p then rule.Ends x P else rule'.Ends x P := by
  split <;> rfl

@[simp] theorem ends_matchName {P : Unit → Rest → Prop} (name : String) :
    (matchName name).Ends x P ↔ x.element.name = name ∧ P () x := by
  simp [matchName]

@[simp] theorem ends_dropAttr {P : Unit → Rest → Prop} (key : String) :
    (Rule.dropAttr key).Ends x P ↔ P () (x.dropAttr key) := by
  simp [Rule.dropAttr]

@[simp] theorem ends_attr {P : String → Rest → Prop} (key : String) :
    (attr key).Ends x P ↔
      ∃ value, x.attrs.value? key = some value ∧ P value (x.dropAttr key) := by
  unfold attr
  rw [ends_bind, ends_takeAttr]
  cases x.attrs.value? key <;> simp

@[simp] theorem ends_readValue [ToString ε] (read : String → Except ε α) (key value : String) :
    (readValue read key value).Ends x P ↔ ∃ a, read value = .ok a ∧ P a x := by
  unfold readValue
  cases read value <;> simp

@[simp] theorem ends_attrRead [ToString ε] (read : String → Except ε α) (key : String) :
    (attrRead read key).Ends x P ↔ ∃ value, x.attrs.value? key = some value ∧
      ∃ a, read value = .ok a ∧ P a (x.dropAttr key) := by
  simp [attrRead]

@[simp] theorem ends_text {P : String → Rest → Prop} :
    text.Ends x P ↔ P (x.text.getD "") x.dropText := by
  simp [text]

@[simp] theorem ends_blankText {P : Unit → Rest → Prop} :
    blankText.Ends x P ↔ Text.isBlankText (x.text.getD "") = true ∧ P () x.dropText := by
  simp [blankText]

/-! ## Rules on children -/

/-- The rule has a value on elements of one name only. -/
class Named (rule : Rule α) (name : outParam String) : Prop where
  name_eq {x : Rest} {P : α → Rest → Prop} : rule.Ends x P → x.element.name = name

/-- A rule that asks for the name of its element first is a rule for that name. -/
instance named_matchName (name : String) : Named (matchName name) name where
  name_eq h := ((ends_matchName name).mp h).1

instance named_bind {rule : Rule β} {name : String} [hnamed : Named rule name]
    (next : β → Rule α) : Named (rule >>= next) name where
  name_eq h := hnamed.name_eq (ends_bind.mp h)

theorem Named.reads {name : String} [hnamed : Named rule name] {e : Element} {value : α}
    (h : rule.Reads e value) : e.name = name :=
  hnamed.name_eq (reads_iff_ends.mp h)

section Pick

variable {reader : Element → Option α} {name : String} {quota : Nat} {cs : List Element}
  {vs : List α}

/-- Where every element of a name can be read, and there are not too many, these are
picked. -/
theorem pick_of_forall₂ (hname : ∀ c v, reader c = some v → c.name = name)
    (h : List.Forall₂ (fun c v => reader c = some v) (named name cs) vs)
    (hquota : vs.length ≤ quota) : Rest.pick reader quota cs = (vs, others name cs) := by
  induction cs generalizing vs quota with
  | nil =>
    cases h
    cases quota <;> rfl
  | cons c cs ih =>
    rw [named_cons] at h
    rw [others_cons]
    by_cases hc : c.name = name
    · rw [if_pos hc] at h ⊢
      cases h with
      | cons hread hrest =>
        cases quota with
        | zero => exact absurd hquota (by simp)
        | succ quota =>
          rw [Rest.pick, hread]
          simp only [ih hrest (Nat.le_of_succ_le_succ hquota)]
    · rw [if_neg hc] at h ⊢
      cases quota with
      | zero =>
        obtain rfl : vs = [] := List.eq_nil_of_length_eq_zero (Nat.le_zero.mp hquota)
        rw [Rest.pick, others_of_named_nil (List.forall₂_nil_right_iff.mp h)]
      | succ quota =>
        have hread : reader c = none := by
          cases hr : reader c with
          | none => rfl
          | some v => exact absurd (hname c v hr) hc
        rw [Rest.pick, hread]
        simp only [ih h hquota]

/-- Where no element of a name is left, all of them were read, and there were not too
many. -/
theorem forall₂_of_pick (hname : ∀ c v, reader c = some v → c.name = name)
    (h : named name (Rest.pick reader quota cs).2 = []) :
    List.Forall₂ (fun c v => reader c = some v) (named name cs) (Rest.pick reader quota cs).1 ∧
      (Rest.pick reader quota cs).1.length ≤ quota := by
  induction cs generalizing quota with
  | nil => cases quota <;> exact ⟨.nil, Nat.zero_le _⟩
  | cons c cs ih =>
    cases quota with
    | zero =>
      rw [Rest.pick] at h ⊢
      exact ⟨h ▸ .nil, Nat.le_refl 0⟩
    | succ quota =>
      rw [named_cons]
      cases hr : reader c with
      | some v =>
        simp only [Rest.pick, hr] at h ⊢
        rw [if_pos (hname c v hr)]
        obtain ⟨hall, hlength⟩ := ih h
        exact ⟨.cons hr hall, Nat.succ_le_succ hlength⟩
      | none =>
        simp only [Rest.pick, hr] at h ⊢
        rw [named_cons] at h
        by_cases hc : c.name = name
        · rw [if_pos hc] at h
          cases h
        · rw [if_neg hc] at h ⊢
          exact ih h

/-- What is not picked has the same elements of other names. -/
theorem others_pick (hname : ∀ c v, reader c = some v → c.name = name) :
    others name (Rest.pick reader quota cs).2 = others name cs := by
  induction cs generalizing quota with
  | nil => cases quota <;> rfl
  | cons c cs ih =>
    cases quota with
    | zero => rfl
    | succ quota =>
      cases hr : reader c with
      | some v => simp only [Rest.pick, hr, ih, others_cons, hname c v hr, if_true]
      | none => simp only [Rest.pick, hr, others_cons, ih]

/-- All elements are picked, whatever their names, where each can be read and there are not
too many. -/
theorem pick_eq_nil_iff :
    Rest.pick reader quota cs = (vs, []) ↔
      List.Forall₂ (fun c v => reader c = some v) cs vs ∧ vs.length ≤ quota := by
  induction cs generalizing vs quota with
  | nil =>
    have hpick : Rest.pick reader quota [] = ([], []) := by cases quota <;> rfl
    rw [hpick, List.forall₂_nil_left_iff]
    constructor
    · rintro ⟨⟩
      exact ⟨rfl, Nat.zero_le _⟩
    · rintro ⟨rfl, _⟩
      rfl
  | cons c cs ih =>
    rw [List.forall₂_cons_left_iff]
    cases quota with
    | zero =>
      constructor
      · rintro ⟨⟩
      · rintro ⟨⟨_, _, _, _, rfl⟩, hlength⟩
        exact absurd hlength (Nat.not_succ_le_zero _)
    | succ quota =>
      cases hr : reader c with
      | none => simp [Rest.pick, hr]
      | some v =>
        simp only [Rest.pick, hr, Prod.mk.injEq]
        constructor
        · rintro ⟨rfl, hnil⟩
          obtain ⟨hall, hlength⟩ := ih.mp (Prod.ext rfl hnil)
          exact ⟨⟨v, _, rfl, hall, rfl⟩, Nat.succ_le_succ hlength⟩
        · rintro ⟨⟨v, vs, ⟨⟩, hall, rfl⟩, hlength⟩
          have hpick := ih.mpr ⟨hall, Nat.le_of_succ_le_succ hlength⟩
          rw [hpick]
          exact ⟨rfl, rfl⟩

end Pick

variable {name : String} [hnamed : Named rule name]

theorem ends_childrenAtMost {P : List α → Rest → Prop} (quota : Nat) :
    (childrenAtMost quota rule).Ends x P ↔
      P (Rest.pick (fun c => Rest.whole (rule.read (.ofElement c))) quota x.children).1
        { x with
          children :=
            (Rest.pick (fun c => Rest.whole (rule.read (.ofElement c))) quota x.children).2 } :=
  ends_iff_of_read_some rfl

/-- Where no child of the name may be left, a rule on children has to read all of them. -/
theorem ends_childrenAtMost_iff {P : List α → Rest → Prop} {quota : Nat}
    (hP : ∀ vs y, P vs y → named name y.children = []) :
    (childrenAtMost quota rule).Ends x P ↔
      ∃ vs, List.Forall₂ rule.Reads (named name x.children) vs ∧ vs.length ≤ quota ∧
        P vs (x.dropNamed name) := by
  rw [ends_childrenAtMost]
  constructor
  · intro h
    obtain ⟨hall, hlength⟩ := forall₂_of_pick (fun _ _ => hnamed.reads) (hP _ _ h)
    rw [pick_of_forall₂ (fun _ _ => hnamed.reads) hall hlength] at h
    exact ⟨_, hall, hlength, h⟩
  · rintro ⟨vs, hall, hlength, h⟩
    rw [pick_of_forall₂ (fun _ _ => hnamed.reads) hall hlength]
    exact h

theorem ends_childrenOpt_iff {P : List α → Rest → Prop}
    (hP : ∀ vs y, P vs y → named name y.children = []) :
    (childrenOpt rule).Ends x P ↔
      ∃ vs, List.Forall₂ rule.Reads (named name x.children) vs ∧ vs.length ≤ unlimited ∧
        P vs (x.dropNamed name) :=
  ends_childrenAtMost_iff hP

theorem ends_children_iff {P : List α → Rest → Prop}
    (hP : ∀ vs y, P vs y → named name y.children = []) :
    (children rule).Ends x P ↔
      ∃ vs, List.Forall₂ rule.Reads (named name x.children) vs ∧ vs.length ≤ unlimited ∧
        vs ≠ [] ∧ P vs (x.dropNamed name) := by
  have hends : ∀ vs y, 
      (if vs.isEmpty = true then missingChild else Pure.pure vs : Rule (List α)).Ends y P ↔
      vs ≠ [] ∧ P vs y := by
    intro vs y
    cases vs <;> simp
  unfold children
  rw [ends_bind, ends_congr hends]
  exact ends_childrenOpt_iff fun vs y h => hP vs y h.2

theorem ends_childOpt_iff {P : Option α → Rest → Prop}
    (hP : ∀ o y, P o y → named name y.children = []) :
    (childOpt rule).Ends x P ↔
      ∃ o : Option α, List.Forall₂ rule.Reads (named name x.children) o.toList ∧
        P o (x.dropNamed name) := by
  unfold childOpt
  simp only [ends_bind, ends_pure]
  rw [ends_childrenAtMost_iff fun vs y h => hP vs.head? y h]
  constructor
  · rintro ⟨vs, hall, hlength, h⟩
    match vs, hlength with
    | [], _ => exact ⟨none, hall, h⟩
    | [v], _ => exact ⟨some v, hall, h⟩
  · rintro ⟨o, hall, h⟩
    refine ⟨o.toList, hall, by cases o <;> simp, ?_⟩
    cases o <;> exact h

theorem ends_child_childOpt :
    (child rule).Ends x P ↔ (childOpt rule).Ends x fun o y => ∃ v, o = some v ∧ P v y := by
  unfold child
  rw [ends_bind]
  refine ends_congr fun o y => ?_
  cases o <;> simp

theorem ends_child_iff (hP : ∀ v y, P v y → named name y.children = []) :
    (child rule).Ends x P ↔
      ∃ v, List.Forall₂ rule.Reads (named name x.children) [v] ∧ P v (x.dropNamed name) := by
  rw [ends_child_childOpt, ends_childOpt_iff]
  · constructor
    · rintro ⟨_, hall, v, rfl, h⟩
      exact ⟨v, hall, h⟩
    · rintro ⟨v, hall, h⟩
      exact ⟨some v, hall, v, rfl, h⟩
  · rintro _ y ⟨v, rfl, h⟩
    exact hP v y h

/-! A rule on children takes nothing where there are none of its name. -/

section NoChild

variable (hnone : named name x.children = [])

include hnone

theorem ends_childrenAtMost_of_named_nil {P : List α → Rest → Prop} (quota : Nat) :
    (childrenAtMost quota rule).Ends x P ↔ P [] x := by
  have hall : List.Forall₂ rule.Reads (named name x.children) [] := hnone ▸ .nil
  rw [ends_childrenAtMost,
    pick_of_forall₂ (fun _ _ => hnamed.reads) hall (Nat.zero_le quota),
    others_of_named_nil hnone]

theorem ends_childrenOpt_of_named_nil {P : List α → Rest → Prop} :
    (childrenOpt rule).Ends x P ↔ P [] x :=
  ends_childrenAtMost_of_named_nil hnone unlimited

theorem ends_childOpt_of_named_nil {P : Option α → Rest → Prop} :
    (childOpt rule).Ends x P ↔ P none x := by
  unfold childOpt
  simp only [ends_bind, ends_pure]
  exact ends_childrenAtMost_of_named_nil hnone 1

theorem not_ends_child_of_named_nil : ¬(child rule).Ends x P := by
  rw [ends_child_childOpt, ends_childOpt_of_named_nil hnone]
  simp

theorem not_ends_children_of_named_nil {P : List α → Rest → Prop} :
    ¬(children rule).Ends x P := by
  unfold children
  rw [ends_bind, ends_childrenOpt_of_named_nil hnone]
  simp

end NoChild

/-! ## Alternatives -/

/-- Of two rules the one that ends well is the only one to match. -/
def Excludes (x : Rest) (P : α → Rest → Prop) (rule rule' : Rule α) : Prop :=
  (rule.Ends x P → ¬rule'.Ends x fun _ _ => True) ∧
    (rule'.Ends x P → ¬rule.Ends x fun _ _ => True)

theorem read_oneOf (rules : List (Rule α)) :
    (oneOf rules).read x = (rules.map fun rule => rule.read x).findSome? id := by
  show (List.ofFn fun i => (rules.get i).read x).findSome? id = _
  congr 1
  apply List.ext_getElem <;> simp

theorem ends_oneOf (rules : List (Rule α)) :
    (oneOf rules).Ends x P ↔
      ∃ value y, (rules.map fun rule => rule.read x).findSome? id = some (value, y) ∧
        P value y := by
  simp only [Ends, read_oneOf]

/-- A choice ends as one of its alternatives does. -/
theorem Ends.exists_of_oneOf {rules : List (Rule α)} (h : (oneOf rules).Ends x P) :
    ∃ rule ∈ rules, rule.Ends x P := by
  obtain ⟨value, y, hread, hP⟩ := (ends_oneOf rules).mp h
  obtain ⟨r, hmem, hr⟩ := List.exists_of_findSome?_eq_some hread
  obtain ⟨rule, hrule, rfl⟩ := List.mem_map.mp hmem
  exact ⟨rule, hrule, value, y, hr, hP⟩

/-- Where each alternative that ends well is the only one to match, a choice ends well
where one of its alternatives does. -/
theorem ends_oneOf_iff {rules : List (Rule α)} (h : rules.Pairwise (Excludes x P)) :
    (oneOf rules).Ends x P ↔ ∃ rule ∈ rules, rule.Ends x P := by
  rw [ends_oneOf]
  induction rules with
  | nil => simp
  | cons rule rules ih =>
    obtain ⟨hrule, hrules⟩ := List.pairwise_cons.mp h
    rw [List.map_cons, List.findSome?_cons]
    simp only [List.mem_cons, exists_eq_or_imp]
    cases hr : rule.read x with
    | none =>
      have hnot : ¬rule.Ends x P := by simp [Ends, hr]
      simpa [hnot] using ih hrules
    | some r =>
      obtain ⟨value, y⟩ := r
      have hmatch : rule.Ends x fun _ _ => True := ⟨value, y, hr, trivial⟩
      have hnone : ¬∃ rule' ∈ rules, rule'.Ends x P := by
        rintro ⟨rule', hmem, hends⟩
        exact (hrule rule' hmem).2 hends hmatch
      rw [or_iff_left hnone]
      simp [Ends, hr]

/-- The same for the alternatives in any order. -/
theorem ends_oneOf_perm_iff {rules rules' : List (Rule α)} (hperm : rules'.Perm rules)
    (h : rules.Pairwise (Excludes x P)) :
    (oneOf rules').Ends x P ↔ ∃ rule ∈ rules, rule.Ends x P := by
  have hsymm : ∀ {r r' : Rule α}, Excludes x P r r' → Excludes x P r' r := fun h => h.symm
  rw [ends_oneOf_iff ((hperm.pairwise_iff hsymm).mpr h)]
  exact exists_congr fun rule => and_congr_left fun _ => hperm.mem_iff

/-- Rules for different names exclude each other. -/
theorem excludes_of_name_ne {rule rule' : Rule α} {name name' : String}
    [hnamed : Named rule name] [hnamed' : Named rule' name'] (h : name ≠ name') :
    Excludes x P rule rule' :=
  ⟨fun hends hends' => h ((hnamed.name_eq hends).symm.trans (hnamed'.name_eq hends')),
    fun hends' hends => h ((hnamed.name_eq hends).symm.trans (hnamed'.name_eq hends'))⟩

section Child

variable {rule' : Rule α} {name' : String} [hnamed' : Named rule' name']

/-- A value that is picked is read from one of the elements. -/
theorem exists_mem_of_mem_pick {reader : Element → Option α} {quota : Nat} {cs : List Element}
    {v : α} (h : v ∈ (Rest.pick reader quota cs).1) : ∃ c ∈ cs, reader c = some v := by
  induction cs generalizing quota with
  | nil => cases quota <;> cases h
  | cons c cs ih =>
    cases quota with
    | zero => cases h
    | succ quota =>
      cases hr : reader c with
      | some w =>
        simp only [Rest.pick, hr, List.mem_cons] at h
        rcases h with rfl | h
        · exact ⟨c, List.mem_cons_self, hr⟩
        · obtain ⟨c', hc', hread⟩ := ih h
          exact ⟨c', List.mem_cons_of_mem _ hc', hread⟩
      | none =>
        simp only [Rest.pick, hr] at h
        obtain ⟨c', hc', hread⟩ := ih h
        exact ⟨c', List.mem_cons_of_mem _ hc', hread⟩

theorem exists_mem_of_ends_child (h : (child rule).Ends x P) :
    ∃ c ∈ x.children, ∃ v, rule.Reads c v := by
  rw [ends_child_childOpt] at h
  unfold childOpt at h
  simp only [ends_bind, ends_pure, ends_childrenAtMost] at h
  obtain ⟨v, hv, _⟩ := h
  obtain ⟨c, hc, hread⟩ := exists_mem_of_mem_pick (List.mem_of_mem_head? hv)
  exact ⟨c, hc, v, hread⟩

include hnamed in
/-- Where no child may be left, the one that is read is the only one. -/
theorem children_eq_of_ends_child (hP : ∀ v y, P v y → y.children = [])
    (h : (child rule).Ends x P) : ∃ c v, x.children = [c] ∧ rule.Reads c v := by
  rw [ends_child_iff fun v y hy => by rw [hP v y hy, named_nil]] at h
  obtain ⟨v, hall, hrest⟩ := h
  have hself : named name x.children = x.children := by
    refine NamesIn.named_eq_self (namesIn_others_iff.mp ?_)
    exact namesIn_nil_iff.mpr (hP _ _ hrest)
  rw [hself] at hall
  cases hall' : x.children with
  | nil => rw [hall'] at hall; cases hall
  | cons c cs =>
    rw [hall'] at hall
    cases hall with
    | cons hread hnil =>
      cases hnil
      exact ⟨c, v, rfl, hread⟩

include hnamed hnamed' in
/-- Where no child may be left, two rules for a child exclude each other if no element is
read by both. -/
theorem excludes_child (hP : ∀ v y, P v y → y.children = [])
    (hdisjoint : ∀ c v v', rule.Reads c v → ¬rule'.Reads c v') :
    Excludes x P (child rule) (child rule') := by
  constructor
  · intro hends hends'
    obtain ⟨c, v, hc, hread⟩ := children_eq_of_ends_child hP hends
    obtain ⟨c', hc', v', hread'⟩ := exists_mem_of_ends_child hends'
    rw [hc, List.mem_singleton] at hc'
    exact hdisjoint c v v' hread (hc' ▸ hread')
  · intro hends' hends
    obtain ⟨c, v, hc, hread⟩ := children_eq_of_ends_child hP hends'
    obtain ⟨c', hc', v', hread'⟩ := exists_mem_of_ends_child hends
    rw [hc, List.mem_singleton] at hc'
    exact hdisjoint c v' v (hc' ▸ hread') hread

end Child

end Rule

end ElementGrammar
