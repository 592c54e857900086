import ElementGrammar.Proofs.Tree.Named

/-!
# Items that are inserted

`Inserted new as bs` is that `bs` is `as` with items of a kind at any places in between.

* What does not ask for the new items does not see them: a filter that none of them passes
  gives the same on both lists (`Inserted.filter_eq`).
* For attributes, the value under a key that is not new is the same
  (`Inserted.value?_eq`), and where names are distinct a new attribute is found under its key
  only if there was none before (`Inserted.value?_eq_or`).  A bound on the keys holds for both
  lists if it allows the new ones (`Inserted.among_iff`).
* For children, those of a name that is not new are the same (`Inserted.named_eq`).
-/

namespace ElementGrammar

/-- The second list is the first one with new items in between. -/
inductive Inserted {α : Type} (new : α → Prop) : List α → List α → Prop where
  | nil : Inserted new [] []
  | keep (a : α) {as bs : List α} (h : Inserted new as bs) : Inserted new (a :: as) (a :: bs)
  | insert {b : α} {as bs : List α} (hb : new b) (h : Inserted new as bs) :
    Inserted new as (b :: bs)

namespace Inserted

section Lists

variable {α : Type} {new : α → Prop} {as bs : List α}

theorem refl (as : List α) : Inserted new as as := by
  induction as with
  | nil => exact .nil
  | cons a as ih => exact .keep a ih

theorem sublist (h : Inserted new as bs) : as.Sublist bs := by
  induction h with
  | nil => exact .slnil
  | keep a _ ih => exact ih.cons_cons a
  | insert _ _ ih => exact ih.cons _

theorem mono {new' : α → Prop} (h : Inserted new as bs) (hnew : ∀ b, new b → new' b) :
    Inserted new' as bs := by
  induction h with
  | nil => exact .nil
  | keep a _ ih => exact .keep a ih
  | insert hb _ ih => exact .insert (hnew _ hb) ih

/-- Where no item can be new nothing is inserted. -/
theorem eq_of_forall_not (h : Inserted new as bs) (hnone : ∀ b, ¬ new b) : bs = as := by
  induction h with
  | nil => rfl
  | keep a _ ih => exact congrArg (a :: ·) ih
  | insert hb => exact absurd hb (hnone _)

/-- What every new item has is had by all items if the old ones have it. -/
theorem forall_mem_iff {p : α → Prop} (h : Inserted new as bs) (hp : ∀ b, new b → p b) :
    (∀ b ∈ bs, p b) ↔ ∀ a ∈ as, p a := by
  induction h with
  | nil => exact Iff.rfl
  | keep a _ ih => rw [List.forall_mem_cons, List.forall_mem_cons, ih]
  | insert hb _ ih => rw [List.forall_mem_cons, ih, and_iff_right (hp _ hb)]

theorem filter (p : α → Bool) (h : Inserted new as bs) :
    Inserted (fun b => new b ∧ p b = true) (as.filter p) (bs.filter p) := by
  induction h with
  | nil => exact .nil
  | keep a _ ih =>
    by_cases ha : p a = true
    · rw [List.filter_cons_of_pos ha, List.filter_cons_of_pos ha]
      exact .keep a ih
    · rw [List.filter_cons_of_neg ha, List.filter_cons_of_neg ha]
      exact ih
  | @insert b _ _ hb _ ih =>
    by_cases hp : p b = true
    · rw [List.filter_cons_of_pos hp]
      exact .insert ⟨hb, hp⟩ ih
    · rw [List.filter_cons_of_neg hp]
      exact ih

/-- A filter that no new item passes does not see what was inserted. -/
theorem filter_eq (p : α → Bool) (h : Inserted new as bs) (hp : ∀ b, new b → p b = false) :
    bs.filter p = as.filter p := by
  refine (h.filter p).eq_of_forall_not ?_
  intro b hb
  rw [hp b hb.1] at hb
  exact Bool.false_ne_true hb.2

end Lists

/-! ## Attributes -/

section Attributes

variable {new : Attribute → Prop} {as bs : Attributes} {keys : List String} {key : String}

theorem distinct (h : Inserted new as bs) (hbs : bs.Distinct) : as.Distinct :=
  (h.sublist.map Attribute.name).nodup hbs

/-- Attributes with other keys change nothing for a key. -/
theorem value?_eq (h : Inserted new as bs) (hkey : ∀ b, new b → b.name ≠ key) :
    bs.value? key = as.value? key := by
  have hfilter : bs.filter (·.name == key) = as.filter (·.name == key) := by
    refine h.filter_eq _ ?_
    intro b hb
    exact beq_false_of_ne (hkey b hb)
  unfold Attributes.value? Attributes.named?
  rw [← List.head?_filter, ← List.head?_filter, hfilter]

/-- Where attributes are distinct a new one has a key under which there was none. -/
theorem value?_eq_or (h : Inserted new as bs) (hbs : bs.Distinct) :
    bs.value? key = as.value? key ∨
      as.value? key = none ∧ ∃ b, new b ∧ b.name = key ∧ bs.value? key = some b.value := by
  induction h with
  | nil => exact Or.inl rfl
  | keep a _ ih =>
    rw [Attributes.value?_cons, Attributes.value?_cons]
    by_cases ha : a.name = key
    · rw [if_pos ha, if_pos ha]
      exact Or.inl rfl
    · rw [if_neg ha, if_neg ha]
      exact ih (Attributes.distinct_cons_iff.mp hbs).2
  | @insert b old later hb h ih =>
    obtain ⟨hfresh, hrest⟩ := Attributes.distinct_cons_iff.mp hbs
    rw [Attributes.value?_cons]
    by_cases hname : b.name = key
    · have hnone : Attributes.value? old key = none := by
        refine Attributes.value?_eq_none_iff.mpr ?_
        intro a ha
        exact hname ▸ hfresh a (h.sublist.subset ha)
      rw [if_pos hname]
      exact Or.inr ⟨hnone, b, hb, hname, rfl⟩
    · rw [if_neg hname]
      exact ih hrest

/-- A bound on the keys that allows the new ones holds for all if it holds for the old ones. -/
theorem among_iff (h : Inserted new as bs) (hbs : bs.Distinct)
    (hkeys : ∀ b, new b → b.name ∈ keys) : bs.Among keys ↔ as.Among keys := by
  constructor
  · intro hamong
    exact ⟨h.distinct hbs, (h.forall_mem_iff hkeys).mp hamong.mem⟩
  · intro hamong
    exact ⟨hbs, (h.forall_mem_iff hkeys).mpr hamong.mem⟩

end Attributes

/-! ## Children -/

section Children

variable {new : Element → Prop} {cs ds : List Element} {name : String}

/-- Children of other names change nothing for a name. -/
theorem named_eq (h : Inserted new cs ds) (hname : ∀ d, new d → d.name ≠ name) :
    named name ds = named name cs := by
  refine h.filter_eq _ ?_
  intro d hd
  exact beq_false_of_ne (hname d hd)

end Children

end Inserted

end ElementGrammar
