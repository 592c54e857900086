import ElementGrammar.Xml.Reading

/-!
# Opening an element

`Tag.localName?` and `Tag.attributes?` are what a tag says by itself: the part of its
name after the last colon, and its attributes in the order in which they are written.
Neither asks where the tag starts or whether a name is given twice.

* `addAttributes_eq_ok_iff` is the loop over the attributes.  It gives them all in
  order, and it succeeds where their names are distinct.
* `Frame.ofTag_eq_ok_iff` is the element that a tag opens.
-/

namespace ElementGrammar.Xml

/-! ## What a tag says -/

/-- The name of a tag without its prefix, where that is UTF-8. -/
def Tag.localName? (tag : Tag) : Option String :=
  (Text.Utf8.decode (localPart tag.name)).toOption

/-- An attribute whose name is UTF-8 and whose value unescapes. -/
def RawAttribute.attribute? (raw : RawAttribute) : Option Attribute :=
  match Text.Utf8.decode raw.name, readText raw.value with
  | .ok name, .ok value => some ⟨name, value⟩
  | _, _ => none

/-- The attributes of a tag, where all of them are written as attributes and can be
decoded. -/
def Tag.attributes? (tag : Tag) : Option Attributes :=
  tag.rawAttributes.mapM fun raw => raw.toOption.bind RawAttribute.attribute?

theorem attributesFrom_of_ended {position : Nat} {bytes : List UInt8}
    (h : nextAttribute position bytes = .ended) : attributesFrom position bytes = [] := by
  rw [attributesFrom]
  split <;> simp_all

theorem attributesFrom_of_found {position next : Nat} {bytes rest : List UInt8}
    {raw : RawAttribute} (h : nextAttribute position bytes = .found raw next rest) :
    attributesFrom position bytes = .ok raw :: attributesFrom next rest := by
  rw [attributesFrom]
  split <;> simp_all

/-! ## The loop over the attributes -/

theorem decodeAttribute_toOption (position : Nat)
    (raw : Except AttributeFault RawAttribute) :
    (decodeAttribute position raw).toOption = raw.toOption.bind RawAttribute.attribute? := by
  cases raw with
  | error fault => rfl
  | ok raw =>
    show _ = raw.attribute?
    rw [decodeAttribute, RawAttribute.attribute?]
    cases Text.Utf8.decode raw.name with
    | error malformed => rfl
    | ok name =>
      cases readText raw.value with
      | error fault => rfl
      | ok value => rfl

/-- Where a tag starts says nothing about its attributes. -/
theorem Tag.attributes?_eq (position : Nat) (tag : Tag) :
    (tag.rawAttributes.map (decodeAttribute position)).mapM Except.toOption =
      tag.attributes? := by
  rw [List.mapM_map, Tag.attributes?]
  exact congrArg (List.mapM · tag.rawAttributes) (funext (decodeAttribute_toOption position))

theorem named?_eq_none_iff {attrs : Attributes} {name : String} :
    attrs.named? name = none ↔ name ∉ attrs.map Attribute.name := by
  simp [Attributes.named?]

theorem mem_names_of_named? {attrs : Attributes} {name : String} {first : Attribute}
    (h : attrs.named? name = some first) : name ∈ attrs.map Attribute.name := by
  have hname := List.find?_some h
  exact List.mem_map.mpr ⟨first, List.mem_of_find?_eq_some h, by simpa using hname⟩

theorem nodup_names_push {attrs : Attributes} {a : Attribute}
    (hattrs : (attrs.map Attribute.name).Nodup) (hnamed : attrs.named? a.name = none) :
    ((attrs.push a).map Attribute.name).Nodup := by
  rw [Attributes.push, List.map_append, List.nodup_append]
  refine ⟨hattrs, by simp, ?_⟩
  intro name hname other hother heq
  rw [List.map_singleton, List.mem_singleton] at hother
  exact named?_eq_none_iff.mp hnamed (hother ▸ heq ▸ hname)

theorem mapM_toOption_cons_ok {ε α : Type} (a : α) (items : List (Except ε α)) :
    (Except.ok a :: items).mapM Except.toOption =
      (items.mapM Except.toOption).map (a :: ·) := by
  rw [List.mapM_cons]
  cases items.mapM Except.toOption <;> rfl

/-- Adding attributes goes through where all of them can be had and no name comes
twice, and then it keeps them in order. -/
theorem addAttributes_eq_ok_iff {element : String} {attrs all : Attributes}
    {items : List (Except TreeError Attribute)}
    (hattrs : (attrs.map Attribute.name).Nodup) :
    addAttributes element attrs items = .ok all ↔
      ∃ added, items.mapM Except.toOption = some added ∧ all = attrs ++ added ∧
        (all.map Attribute.name).Nodup := by
  induction items generalizing attrs with
  | nil =>
    rw [addAttributes, List.mapM_nil]
    constructor
    · intro h
      injection h with h
      exact ⟨[], rfl, by rw [← h, List.append_nil], h ▸ hattrs⟩
    · intro h
      obtain ⟨added, hadded, hall, _⟩ := h
      injection hadded with hadded
      rw [hall, ← hadded, List.append_nil]
  | cons item items ih =>
    cases item with
    | error e => simp [addAttributes, Except.toOption]
    | ok a =>
      rw [addAttributes, mapM_toOption_cons_ok]
      cases hnamed : attrs.named? a.name with
      | some first =>
        have hmem := mem_names_of_named? hnamed
        constructor
        · intro h
          cases h
        · intro h
          obtain ⟨added, hadded, rfl, hall⟩ := h
          obtain ⟨more, _, rfl⟩ := Option.map_eq_some_iff.mp hadded
          rw [List.map_append, List.nodup_append] at hall
          exact absurd rfl (hall.2.2 _ hmem _ (by simp))
      | none =>
        show addAttributes element (attrs.push a) items = .ok all ↔ _
        rw [ih (nodup_names_push hattrs hnamed)]
        constructor
        · intro h
          obtain ⟨more, hmore, hall, hnodup⟩ := h
          refine ⟨a :: more, by rw [hmore]; rfl, ?_, hnodup⟩
          rw [hall, Attributes.push, List.append_assoc, List.singleton_append]
        · intro h
          obtain ⟨added, hadded, hall, hnodup⟩ := h
          obtain ⟨more, hmore, rfl⟩ := Option.map_eq_some_iff.mp hadded
          refine ⟨more, hmore, ?_, hnodup⟩
          rw [hall, Attributes.push, List.append_assoc, List.singleton_append]

/-- The element that a tag opens has its local name and its attributes, whose names
are distinct. -/
theorem Frame.ofTag_eq_ok_iff {position : Nat} {tag : Tag} {frame : Frame} :
    Frame.ofTag position tag = .ok frame ↔
      ∃ name attrs, tag.localName? = some name ∧ tag.attributes? = some attrs ∧
        (attrs.map Attribute.name).Nodup ∧ frame = ⟨name, attrs, [], none⟩ := by
  rw [Frame.ofTag, Tag.localName?]
  cases hname : Text.Utf8.decode (localPart tag.name) with
  | error malformed => simp [Except.toOption]
  | ok name =>
    have hadd : ∀ all, addAttributes name []
        (tag.rawAttributes.map (decodeAttribute position)) = .ok all ↔
          ∃ added, tag.attributes? = some added ∧ all = added ∧
            (all.map Attribute.name).Nodup := fun all => by
      have hnil : (([] : Attributes).map Attribute.name).Nodup := List.nodup_nil
      rw [addAttributes_eq_ok_iff hnil, Tag.attributes?_eq]
      rfl
    dsimp only
    cases hattrs : addAttributes name [] (tag.rawAttributes.map (decodeAttribute position)) with
    | error e =>
      constructor
      · intro h
        cases h
      · intro h
        obtain ⟨_, attrs, _, hattrs', hnodup, _⟩ := h
        rw [(hadd attrs).mpr ⟨attrs, hattrs', rfl, hnodup⟩] at hattrs
        cases hattrs
    | ok all =>
      obtain ⟨_, hall, rfl, hnodup⟩ := (hadd all).mp hattrs
      constructor
      · intro h
        injection h with h
        exact ⟨name, _, rfl, hall, hnodup, h.symm⟩
      · intro h
        obtain ⟨_, attrs, hname', hattrs', _, rfl⟩ := h
        injection hname' with hname'
        rw [hall] at hattrs'
        injection hattrs' with hattrs'
        rw [hname', hattrs']

end ElementGrammar.Xml
