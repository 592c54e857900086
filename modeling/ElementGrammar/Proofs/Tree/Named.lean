import Mathlib.Data.List.Forall2
import Mathlib.Data.List.Nodup
import Mathlib.Data.List.Perm.Basic
import ElementGrammar.Tree.Element

/-!
# Items by name

The items of an element as a grammar asks for them: an attribute by its key, and
children by their name.

* `Attributes.value?` is the value under a key.  `Attributes.Among` bounds the keys:
  they are among some, and no two attributes share one.
* `named` are the children of a name, in order, and `others` are all but these.
  `NamesIn` bounds the names.

Taking out what has a key or a name leaves the rest as it was
(`Attributes.value?_without`, `named_others`) and widens the bound by that key or name
(`Attributes.among_without_iff`, `namesIn_others_iff`).  So a bound on what is left is
one on the whole element.
-/

namespace ElementGrammar

namespace Attributes

variable {as as' : Attributes} {key other : String} {keys : List String}

/-- The value of the first attribute of a name. -/
def value? (as : Attributes) (key : String) : Option String :=
  (as.named? key).map (·.value)

/-- The attributes less the first one of a name. -/
def without (as : Attributes) (key : String) : Attributes :=
  as.eraseP (·.name == key)

/-- No two attributes have the same name. -/
def Distinct (as : Attributes) : Prop :=
  (as.map (·.name)).Nodup

instance (as : Attributes) : Decidable as.Distinct :=
  inferInstanceAs (Decidable (as.map (·.name)).Nodup)

/-- The names of the attributes are among some, and no two are the same. -/
structure Among (as : Attributes) (keys : List String) : Prop where
  distinct : as.Distinct
  mem : ∀ a ∈ as, a.name ∈ keys

@[simp] theorem value?_nil (key : String) : value? [] key = none :=
  rfl

@[simp] theorem distinct_nil : Distinct [] :=
  List.nodup_nil

theorem distinct_cons_iff {a : Attribute} :
    Distinct (a :: as) ↔ (∀ b ∈ as, b.name ≠ a.name) ∧ as.Distinct := by
  simp [Distinct]

theorem Distinct.filter (h : as.Distinct) (p : Attribute → Bool) :
    Distinct (as.filter p) :=
  h.sublist (List.filter_sublist.map _)

theorem value?_cons (a : Attribute) (as : Attributes) (key : String) :
    value? (a :: as) key = if a.name = key then some a.value else as.value? key := by
  unfold value? named?
  by_cases h : a.name = key <;> simp [h]

theorem value?_eq_none_iff : as.value? key = none ↔ ∀ a ∈ as, a.name ≠ key := by
  simp [value?, named?]

/-- The value under a key is that of an attribute before which no other has the key. -/
theorem value?_append_cons {before : Attributes} (h : ∀ a ∈ before, a.name ≠ key)
    (value : String) (after : Attributes) :
    value? (before ++ ⟨key, value⟩ :: after) key = some value := by
  induction before with
  | nil => rw [List.nil_append, value?_cons, if_pos rfl]
  | cons a before ih =>
    obtain ⟨ha, hbefore⟩ := List.forall_mem_cons.mp h
    rw [List.cons_append, value?_cons, if_neg ha, ih hbefore]

/-! ## Taking an attribute out -/

theorem without_cons (a : Attribute) (as : Attributes) (key : String) :
    without (a :: as) key = if a.name = key then as else a :: as.without key := by
  unfold without
  by_cases h : a.name = key <;> simp [h]

/-- An attribute before which no other has the key is the one that is taken out. -/
theorem without_append_cons {before : Attributes} (h : ∀ a ∈ before, a.name ≠ key)
    (value : String) (after : Attributes) :
    without (before ++ ⟨key, value⟩ :: after) key = before ++ after := by
  induction before with
  | nil => rw [List.nil_append, without_cons, if_pos rfl, List.nil_append]
  | cons a before ih =>
    obtain ⟨ha, hbefore⟩ := List.forall_mem_cons.mp h
    rw [List.cons_append, without_cons, if_neg ha, ih hbefore, List.cons_append]

/-- An attribute that is taken out changes nothing for the other keys. -/
@[simp] theorem value?_without (h : other ≠ key) :
    (as.without key).value? other = as.value? other := by
  induction as with
  | nil => rfl
  | cons a as ih =>
    rw [without_cons, value?_cons]
    by_cases ha : a.name = key
    · have hne : a.name ≠ other := fun he => h (he.symm.trans ha)
      rw [if_pos ha, if_neg hne]
    · rw [if_neg ha, value?_cons, ih]

theorem without_of_value?_none (h : as.value? key = none) : as.without key = as := by
  refine List.eraseP_of_forall_not fun a ha => ?_
  simpa using value?_eq_none_iff.mp h a ha

/-- Attributes that are kept have the values that they had. -/
theorem value?_filter {p : Attribute → Bool} (h : ∀ a, a.name = key → p a = true) :
    value? (as.filter p) key = as.value? key := by
  induction as with
  | nil => rfl
  | cons a as ih =>
    rw [List.filter_cons, value?_cons]
    by_cases ha : a.name = key
    · rw [if_pos (h a ha), value?_cons, if_pos ha, if_pos ha]
    · rw [if_neg ha, ← ih]
      split
      · rw [value?_cons, if_neg ha]
      · rfl

/-- Attributes of two names are taken out in either order. -/
theorem without_comm (h : key ≠ other) :
    (as.without key).without other = (as.without other).without key := by
  refine List.eraseP_comm fun a _ => ?_
  by_cases ha : a.name = key
  · have hne : a.name ≠ other := fun he => h (ha.symm.trans he)
    exact Or.inr (by simpa using hne)
  · exact Or.inl (by simpa using ha)

/-- Among attributes that are kept the first one of a name is the first one of all. -/
theorem without_filter {p : Attribute → Bool} (h : ∀ a, a.name = key → p a = true) :
    without (as.filter p) key = (as.without key).filter p := by
  unfold without
  rw [List.eraseP_filter]
  congr 2
  funext a
  by_cases ha : a.name = key
  · simp [ha, h a ha]
  · simp [ha]

@[simp] theorem among_nil_iff : as.Among [] ↔ as = [] := by
  constructor
  · intro h
    exact List.eq_nil_iff_forall_not_mem.mpr fun a ha => by simpa using h.mem a ha
  · rintro rfl
    exact ⟨distinct_nil, by simp⟩

/-- Attributes among some keys have no value under any other. -/
theorem Among.value?_eq_none (h : as.Among keys) (hkey : key ∉ keys) :
    as.value? key = none :=
  value?_eq_none_iff.mpr fun a ha hname => hkey (hname ▸ h.mem a ha)

theorem among_cons_iff {a : Attribute} :
    Among (a :: as) keys ↔ a.name ∈ keys ∧ as.value? a.name = none ∧ as.Among keys := by
  rw [value?_eq_none_iff]
  constructor
  · intro h
    obtain ⟨hfresh, hdistinct⟩ := distinct_cons_iff.mp h.distinct
    obtain ⟨ha, has⟩ := List.forall_mem_cons.mp h.mem
    exact ⟨ha, hfresh, hdistinct, has⟩
  · rintro ⟨ha, hfresh, h⟩
    exact ⟨distinct_cons_iff.mpr ⟨hfresh, h.distinct⟩, List.forall_mem_cons.mpr ⟨ha, h.mem⟩⟩

/-- Attributes without a key are among others where they are among these and the key. -/
theorem among_iff_of_value?_none (h : as.value? key = none) :
    as.Among keys ↔ as.Among (key :: keys) := by
  rw [value?_eq_none_iff] at h
  refine ⟨fun has => ⟨has.distinct, fun a ha => List.mem_cons_of_mem _ (has.mem a ha)⟩,
    fun has => ⟨has.distinct, fun a ha => ?_⟩⟩
  exact List.mem_of_ne_of_mem (h a ha) (has.mem a ha)

/-- What is left without a key is among others where all of it was among these and
the key. -/
theorem among_without_iff (hkey : key ∉ keys) :
    (as.without key).Among keys ↔ as.Among (key :: keys) := by
  induction as with
  | nil =>
    rw [without_of_value?_none (value?_nil key)]
    exact among_iff_of_value?_none (value?_nil key)
  | cons a as ih =>
    rw [without_cons, among_cons_iff, List.mem_cons]
    by_cases ha : a.name = key
    · rw [if_pos ha, ha]
      constructor
      · intro h
        have hnone := h.value?_eq_none hkey
        exact ⟨Or.inl rfl, hnone, (among_iff_of_value?_none hnone).mp h⟩
      · rintro ⟨_, hnone, h⟩
        exact (among_iff_of_value?_none hnone).mpr h
    · rw [if_neg ha, among_cons_iff, value?_without ha, ih]
      simp only [ha, false_or]

/-! ## The order of attributes -/

theorem Among.perm (h : as.Among keys) (hperm : as.Perm as') : as'.Among keys where
  distinct := ((hperm.map _).nodup_iff).mp h.distinct
  mem a ha := h.mem a (hperm.mem_iff.mpr ha)

/-- Where names are distinct the value under a key does not depend on the order. -/
theorem Distinct.value?_perm (h : as.Distinct) (hperm : as.Perm as') (key : String) :
    as.value? key = as'.value? key := by
  induction hperm with
  | nil => rfl
  | cons a _ ih =>
    rw [value?_cons, value?_cons, ih (distinct_cons_iff.mp h).2]
  | swap a b as =>
    have hne : a.name ≠ b.name := (distinct_cons_iff.mp h).1 a List.mem_cons_self
    simp only [value?_cons]
    by_cases hb : b.name = key
    · have ha : a.name ≠ key := fun ha => hne (ha.trans hb.symm)
      rw [if_pos hb, if_neg ha, if_pos hb]
    · rw [if_neg hb, if_neg hb]
  | trans hfirst _ ih ih' =>
    rw [ih h, ih' ((hfirst.map _).nodup_iff.mp h)]

end Attributes

/-! ## Children -/

variable {cs : List Element} {name other : String} {names : List String}

/-- The elements of a name, in order. -/
def named (name : String) (cs : List Element) : List Element :=
  cs.filter (·.name == name)

/-- The elements that have another name, in order. -/
def others (name : String) (cs : List Element) : List Element :=
  cs.filter (·.name != name)

/-- The names of elements are among some. -/
def NamesIn (names : List String) (cs : List Element) : Prop :=
  ∀ c ∈ cs, c.name ∈ names

@[simp] theorem named_nil (name : String) : named name [] = [] :=
  rfl

theorem mem_named {c : Element} : c ∈ named name cs ↔ c ∈ cs ∧ c.name = name := by
  simp [named]

theorem named_cons (c : Element) (cs : List Element) (name : String) :
    named name (c :: cs) = if c.name = name then c :: named name cs else named name cs := by
  unfold named
  by_cases h : c.name = name <;> simp [h]

theorem others_cons (c : Element) (cs : List Element) (name : String) :
    others name (c :: cs) = if c.name = name then others name cs else c :: others name cs := by
  unfold others
  by_cases h : c.name = name <;> simp [h]

@[simp] theorem named_append (name : String) (cs cs' : List Element) :
    named name (cs ++ cs') = named name cs ++ named name cs' :=
  List.filter_append cs cs'

/-- Elements of different names may change places. -/
theorem named_swap {c d : Element} (h : c.name ≠ d.name) :
    named name (c :: d :: cs) = named name (d :: c :: cs) := by
  simp only [named_cons]
  by_cases hc : c.name = name
  · have hd : d.name ≠ name := fun hd => h (hc.trans hd.symm)
    simp only [if_pos hc, if_neg hd]
  · simp only [if_neg hc]

/-- Elements that are left out change nothing for the other names. -/
@[simp] theorem named_others (h : other ≠ name) :
    named other (others name cs) = named other cs := by
  unfold named others
  rw [List.filter_filter]
  refine List.filter_congr fun c _ => ?_
  by_cases hc : c.name = other <;> simp [hc, h]

theorem others_of_named_nil (h : named name cs = []) : others name cs = cs := by
  refine List.filter_eq_self.mpr fun c hc => ?_
  have hne : c.name ≠ name := by simpa using List.filter_eq_nil_iff.mp h c hc
  simpa using hne

@[simp] theorem namesIn_nil_iff : NamesIn [] cs ↔ cs = [] := by
  simp [NamesIn, List.eq_nil_iff_forall_not_mem]

/-- What is left without a name has names among others where all of it had names among
these and that name. -/
@[simp] theorem namesIn_others_iff :
    NamesIn names (others name cs) ↔ NamesIn (name :: names) cs := by
  simp only [NamesIn, others, List.mem_filter, bne_iff_ne, ne_eq, List.mem_cons, and_imp]
  refine forall_congr' fun c => forall_congr' fun _ => ?_
  by_cases hc : c.name = name <;> simp [hc]

/-- Elements with names among some have none of another name. -/
theorem NamesIn.named_eq_nil (h : NamesIn names cs) (hname : name ∉ names) :
    named name cs = [] := by
  refine List.filter_eq_nil_iff.mpr fun c hc => ?_
  have hne : c.name ≠ name := fun he => hname (he ▸ h c hc)
  simpa using hne

/-- Elements that all have one name are those of that name. -/
theorem NamesIn.named_eq_self (h : NamesIn [name] cs) : named name cs = cs := by
  refine List.filter_eq_self.mpr fun c hc => ?_
  simpa using h c hc

theorem namesIn_append_iff {cs' : List Element} :
    NamesIn names (cs ++ cs') ↔ NamesIn names cs ∧ NamesIn names cs' :=
  List.forall_mem_append

theorem NamesIn.mono {names' : List String} (h : NamesIn names cs) (hsub : names ⊆ names') :
    NamesIn names' cs :=
  fun c hc => hsub (h c hc)

/-- Elements that all have one name are all or none of those of a name. -/
theorem NamesIn.named_eq (h : NamesIn [name] cs) (other : String) :
    named other cs = if other = name then cs else [] := by
  split
  · exact ‹other = name› ▸ h.named_eq_self
  · exact h.named_eq_nil (mt List.mem_singleton.mp ‹¬other = name›)

/-! ## Elements and what they stand for -/

/-- One value is what one element stands for. -/
theorem forall₂_singleton_right_iff {α β : Type} {R : α → β → Prop} {as : List α} {v : β} :
    List.Forall₂ R as [v] ↔ ∃ a, as = [a] ∧ R a v := by
  rw [List.forall₂_cons_right_iff]
  simp [List.forall₂_nil_right_iff, and_comm]

/-- Elements that are made from values stand for these. -/
theorem forall₂_map_self {α β : Type} {R : β → α → Prop} {f : α → β} {vs : List α}
    (h : ∀ v ∈ vs, R (f v) v) : List.Forall₂ R (vs.map f) vs :=
  List.forall₂_map_left_iff.mpr (List.forall₂_same.mpr h)

/-- Elements that stand for values in one sense and are matched by others stand for them
in the sense that the match carries over. -/
theorem forall₂_transfer {α β γ : Type} {R : α → γ → Prop} {S : β → γ → Prop}
    {ρ : α → β → Prop} {as : List α} {bs : List β} {vs : List γ} (hs : List.Forall₂ ρ as bs)
    (hvs : List.Forall₂ R as vs) (h : ∀ a b v, ρ a b → R a v → S b v) :
    List.Forall₂ S bs vs := by
  induction hs generalizing vs with
  | nil =>
    cases hvs
    exact .nil
  | cons hab _ ih =>
    cases hvs with
    | cons hav hvs => exact .cons (h _ _ _ hab hav) (ih hvs)

end ElementGrammar
