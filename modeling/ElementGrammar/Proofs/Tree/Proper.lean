import ElementGrammar.Proofs.Tree.Named
import ElementGrammar.Tree.Error

/-!
# Elements that can be there

* `Element.Built` is an element that can be built, at every level.
* `Element.Proper` is such an element with distinct attributes.  Whether an element is proper is
  decidable.
* `Attributes.given` are attributes under some keys, each of which may be absent.  Where the
  keys are distinct so are the attributes (`Attributes.among_given`), and the value under each
  key is the one that was given (`Attributes.value?_given_cons`).
-/

namespace ElementGrammar

/-- An element that can be built, and holds elements of this kind only. -/
inductive Element.Built : Element → Prop where
  | intro {e : Element} (built : Element.new? e.name e.attrs e.children e.text = .ok e)
    (inside : ∀ c ∈ e.children, Built c) : Built e

/-- An element that can be built, has distinct attributes, and holds elements of this kind
only. -/
inductive Element.Proper : Element → Prop where
  | intro {e : Element} (built : Element.new? e.name e.attrs e.children e.text = .ok e)
    (distinct : e.attrs.Distinct) (inside : ∀ c ∈ e.children, Proper c) : Proper e

namespace Element

theorem proper_iff {e : Element} :
    e.Proper ↔ new? e.name e.attrs e.children e.text = .ok e ∧ e.attrs.Distinct ∧
      ∀ c ∈ e.children, c.Proper := by
  constructor
  · intro h
    cases h with
    | intro built distinct inside => exact ⟨built, distinct, inside⟩
  · intro h
    exact .intro h.1 h.2.1 h.2.2

mutual

def decProper : (e : Element) → Decidable e.Proper
  | ⟨name, attrs, children, text⟩ =>
    have := decProperAll children
    decidable_of_iff _ (proper_iff (e := ⟨name, attrs, children, text⟩)).symm

def decProperAll : (cs : List Element) → Decidable (∀ c ∈ cs, c.Proper)
  | [] => isTrue fun _ hc => absurd hc List.not_mem_nil
  | c :: cs =>
    have := decProper c
    have := decProperAll cs
    decidable_of_iff _ List.forall_mem_cons.symm

end

instance : DecidablePred Proper := decProper

theorem Built.inside {e : Element} (h : e.Built) : ∀ c ∈ e.children, c.Built := by
  cases h with
  | intro _ inside => exact inside

/-- An element with a text has no children. -/
theorem Built.children_eq_nil {e : Element} {text : String} (h : e.Built)
    (htext : e.text = some text) : e.children = [] := by
  cases h with
  | intro built _ =>
    by_contra hne
    have hsome : e.children.isEmpty = false := List.isEmpty_eq_false_iff.mpr hne
    rw [htext, new?, hsome] at built
    split at built <;> contradiction

theorem Proper.toBuilt {e : Element} (h : e.Proper) : e.Built := by
  induction h with
  | intro built _ _ ih => exact .intro built ih

/-- An element with children has no text. -/
theorem Proper.text_eq_none {e c : Element} (h : e.Proper) (hc : c ∈ e.children) :
    e.text = none := by
  cases htext : e.text with
  | none => rfl
  | some text =>
    rw [h.toBuilt.children_eq_nil htext] at hc
    exact absurd hc List.not_mem_nil

end Element

namespace Attributes

variable {ps : List (String × Option String)} {keys : List String}

/-- The attributes under some keys that are given. -/
def given (ps : List (String × Option String)) : Attributes :=
  ps.filterMap fun p => p.2.map (⟨p.1, ·⟩)

@[simp] theorem given_nil : given [] = [] :=
  rfl

theorem given_cons_none (key : String) (ps : List (String × Option String)) :
    given ((key, none) :: ps) = given ps :=
  rfl

theorem given_cons_some (key value : String) (ps : List (String × Option String)) :
    given ((key, some value) :: ps) = ⟨key, value⟩ :: given ps :=
  rfl

/-- What is given under several keys comes from the first of them that has a value. -/
@[simp] theorem value?_given_cons (key other : String) (o : Option String)
    (ps : List (String × Option String)) :
    (given ((key, o) :: ps)).value? other =
      if key = other then o.or ((given ps).value? other) else (given ps).value? other := by
  cases o with
  | none => rw [given_cons_none, Option.none_or, ite_self]
  | some value =>
    rw [given_cons_some, value?_cons]
    rfl

theorem mem_keys_of_mem_given {a : Attribute} (h : a ∈ given ps) : a.name ∈ ps.map (·.1) := by
  obtain ⟨p, hp, hvalue⟩ := List.mem_filterMap.mp h
  obtain ⟨value, _, rfl⟩ := Option.map_eq_some_iff.mp hvalue
  exact List.mem_map_of_mem hp

/-- Attributes that are given under distinct keys are distinct. -/
theorem among_given (hkeys : ps.map (·.1) = keys) (h : keys.Nodup) : (given ps).Among keys := by
  subst hkeys
  refine ⟨?_, fun a ha => mem_keys_of_mem_given ha⟩
  induction ps with
  | nil => exact distinct_nil
  | cons p ps ih =>
    obtain ⟨key, o⟩ := p
    obtain ⟨hfresh, hrest⟩ := List.nodup_cons.mp h
    cases o with
    | none => exact ih hrest
    | some value =>
      rw [given_cons_some, distinct_cons_iff]
      refine ⟨fun a ha hname => hfresh ?_, ih hrest⟩
      have hkey : a.name = key := hname
      exact hkey ▸ mem_keys_of_mem_given ha

end Attributes

/-- An element with children or none, and without a text, can be built. -/
theorem Element.proper_of_children {name : String} {as : Attributes} {cs : List Element}
    (hname : name.isEmpty = false) (hdistinct : as.Distinct) (hcs : ∀ c ∈ cs, c.Proper) :
    Element.Proper ⟨name, as, cs, none⟩ := by
  refine .intro ?_ hdistinct hcs
  simp [Element.new?, hname]

/-- An element with a text and without children can be built. -/
theorem Element.proper_of_text {name : String} {as : Attributes} {text : Option String}
    (hname : name.isEmpty = false) (hdistinct : as.Distinct) :
    Element.Proper ⟨name, as, [], text⟩ := by
  refine .intro ?_ hdistinct fun _ hc => absurd hc List.not_mem_nil
  simp [Element.new?, hname]

end ElementGrammar
