import Mathlib.Data.List.Induction
import Mathlib.Tactic.ByContra
import ElementGrammar.Proofs.Xml.Opening

/-!
# Names that are given twice

A tag opens an element where its attributes can be decoded and no name comes twice.  Where
something is wrong with several attributes the first of them counts, and where a name is
repeated both values are named.

* `Attributes.FirstRepeat` says which two attributes of a list are blamed: the second is the
  first that has the name of an earlier one, and no other attribute before it has that name.
  There is one such pair at most (`Attributes.FirstRepeat.unique`).
* `Attributes.exists_eq_append_of_not_nodup` cuts a list at that second attribute, wherever names
  are not distinct.
* `addAttributes_decoded` and `addAttributes_firstRepeat` are the loop over the attributes:
  it keeps those that have names of their own, whatever comes after them, and stops at the first
  that has not.
* `Frame.ofTag_names` puts these together.
-/

namespace ElementGrammar

/-! ## The first repeat -/

namespace Attributes

/-- The attributes at the places `i` and `j` have one name, and the second of them is the first
in the list that has the name of an earlier attribute. -/
structure FirstRepeat (attrs : Attributes) (i j : Nat) (first second : Attribute) : Prop where
  first_at : attrs[i]? = some first
  second_at : attrs[j]? = some second
  earlier : i < j
  name_eq : first.name = second.name
  /-- No attribute before the second has the name of one that is before itself. -/
  least : ∀ k < j, ∀ a, attrs[k]? = some a → a.name ∉ (attrs.take k).map Attribute.name
  /-- No other attribute before the second has its name. -/
  only : ∀ k < j, ∀ a, attrs[k]? = some a → a.name = second.name → k = i

/-- Where names are distinct, attributes of one name stand at one place. -/
theorem eq_of_name_eq {attrs : Attributes} (h : (attrs.map Attribute.name).Nodup) {k l : Nat}
    {a b : Attribute} (ha : attrs[k]? = some a) (hb : attrs[l]? = some b)
    (hname : a.name = b.name) : k = l := by
  have hk : (attrs.map Attribute.name)[k]? = some a.name := by rw [List.getElem?_map, ha]; rfl
  have hl : (attrs.map Attribute.name)[l]? = some a.name := by
    rw [List.getElem?_map, hb, hname]
    rfl
  obtain ⟨hlt, _⟩ := List.getElem?_eq_some_iff.mp hk
  exact (List.getElem?_inj hlt h).mp (hk.trans hl.symm)

/-- An attribute after others with distinct names, with the name of one of these, is the first
that repeats a name. -/
theorem firstRepeat_append {before : Attributes} {first second : Attribute} (after : Attributes)
    (hbefore : (before.map Attribute.name).Nodup)
    (hfirst : before.named? second.name = some first) :
    ∃ i, (before ++ second :: after).FirstRepeat i before.length first second := by
  obtain ⟨i, hi, hat⟩ := List.getElem_of_mem (List.mem_of_find?_eq_some hfirst)
  have hi' : before[i]? = some first := List.getElem?_eq_some_iff.mpr ⟨hi, hat⟩
  have hname : first.name = second.name := by simpa using List.find?_some hfirst
  have hsame {k : Nat} (hk : k < before.length) :
      (before ++ second :: after)[k]? = before[k]? := List.getElem?_append_left hk
  refine ⟨i, ?_, ?_, hi, hname, ?_, ?_⟩
  · rw [hsame hi, hi']
  · simp
  · intro k hk a ha hmem
    rw [List.take_append_of_le_length (Nat.le_of_lt hk)] at hmem
    obtain ⟨b, hb, hba⟩ := List.mem_map.mp hmem
    obtain ⟨l, hl, hbl⟩ := List.mem_take_iff_getElem.mp hb
    have hl' : before[l]? = some b := List.getElem?_eq_some_iff.mpr ⟨by omega, hbl⟩
    have hlk : l = k := eq_of_name_eq hbefore hl' (hsame hk ▸ ha) hba
    omega
  · intro k hk a ha hak
    exact eq_of_name_eq hbefore (hsame hk ▸ ha) hi' (hak.trans hname.symm)

/-- There is one first repeat at most. -/
theorem FirstRepeat.unique {attrs : Attributes} {i j i' j' : Nat}
    {first second first' second' : Attribute} (h : attrs.FirstRepeat i j first second)
    (h' : attrs.FirstRepeat i' j' first' second') :
    i = i' ∧ j = j' ∧ first = first' ∧ second = second' := by
  have hle {i j i' j' : Nat} {first second first' second' : Attribute}
      (h : attrs.FirstRepeat i j first second) (h' : attrs.FirstRepeat i' j' first' second') :
      j' ≤ j := by
    refine Nat.le_of_not_lt fun hlt => h'.least j hlt second h.second_at ?_
    have hfirst : (attrs.take j)[i]? = some first := by
      rw [List.getElem?_take_of_lt h.earlier, h.first_at]
    exact h.name_eq ▸ List.mem_map_of_mem (List.mem_of_getElem? hfirst)
  have hj : j = j' := Nat.le_antisymm (hle h' h) (hle h h')
  subst hj
  have hsecond : second = second' := Option.some.inj (h.second_at.symm.trans h'.second_at)
  subst hsecond
  have hi : i = i' := h'.only i h.earlier first h.first_at h.name_eq
  subst hi
  exact ⟨rfl, rfl, Option.some.inj (h.first_at.symm.trans h'.first_at), rfl⟩

/-- A list in which names are not distinct has a first attribute whose name was given before. -/
theorem exists_eq_append_of_not_nodup {attrs : Attributes}
    (h : ¬(attrs.map Attribute.name).Nodup) :
    ∃ before second after, attrs = before ++ second :: after ∧
      (before.map Attribute.name).Nodup ∧ second.name ∈ before.map Attribute.name := by
  -- From the last attribute on: either the names before it are distinct, and it is the one, or
  -- the one is before it.
  induction attrs using List.reverseRecOn with
  | nil => exact absurd List.nodup_nil h
  | append_singleton before second ih =>
    by_cases hbefore : (before.map Attribute.name).Nodup
    · refine ⟨before, second, [], rfl, hbefore, ?_⟩
      by_contra hmem
      exact h (Xml.nodup_names_push hbefore (Xml.named?_eq_none_iff.mpr hmem))
    · obtain ⟨before', second', after, rfl, hnodup, hmem⟩ := ih hbefore
      exact ⟨before', second', after ++ [second], by simp, hnodup, hmem⟩

end Attributes

namespace Xml

/-! ## The loop over the attributes -/

/-- Attributes that have names of their own are added, and the loop goes on after them. -/
theorem addAttributes_append {element : String} {attrs added : Attributes}
    {rest : List (Except TreeError Attribute)} (h : ((attrs ++ added).map Attribute.name).Nodup) :
    addAttributes element attrs (added.map .ok ++ rest) =
      addAttributes element (attrs ++ added) rest := by
  induction added generalizing attrs with
  | nil => rw [List.map_nil, List.nil_append, List.append_nil]
  | cons a added ih =>
    have hpush : attrs.push a ++ added = attrs ++ a :: added := by
      rw [Attributes.push, List.append_assoc, List.singleton_append]
    have hnamed : attrs.named? a.name = none := by
      rw [named?_eq_none_iff]
      intro hmem
      rw [List.map_append, List.nodup_append] at h
      exact h.2.2 _ hmem _ (by simp) rfl
    rw [List.map_cons, List.cons_append, addAttributes, hnamed]
    exact (ih (hpush ▸ h)).trans (by rw [hpush])

/-- Where names are distinct the loop comes to what follows with all attributes added. -/
theorem addAttributes_decoded {element : String} {attrs : Attributes}
    {rest : List (Except TreeError Attribute)} (h : (attrs.map Attribute.name).Nodup) :
    addAttributes element [] (attrs.map .ok ++ rest) = addAttributes element attrs rest :=
  addAttributes_append h

/-- Where they are not the loop stops at the first repeat, whatever follows. -/
theorem addAttributes_firstRepeat (element : String) {attrs : Attributes}
    (rest : List (Except TreeError Attribute)) (h : ¬(attrs.map Attribute.name).Nodup) :
    ∃ i j first second, attrs.FirstRepeat i j first second ∧
      addAttributes element [] (attrs.map .ok ++ rest) =
        .error (.duplicateAttribute element second.name first.value second.value) := by
  obtain ⟨before, second, after, rfl, hbefore, hmem⟩ :=
    Attributes.exists_eq_append_of_not_nodup h
  cases hfirst : Attributes.named? before second.name with
  | none => exact absurd hmem (named?_eq_none_iff.mp hfirst)
  | some first =>
    obtain ⟨i, hrepeat⟩ := Attributes.firstRepeat_append after hbefore hfirst
    refine ⟨i, before.length, first, second, hrepeat, ?_⟩
    rw [List.map_append, List.append_assoc, addAttributes_decoded hbefore, List.map_cons,
      List.cons_append, addAttributes, hfirst]

/-! ## Opening a tag -/

/-- Decoding an attribute by itself never finds that its name was given before. -/
theorem decodeAttribute_ne_duplicate (position : Nat) (raw : Except AttributeFault RawAttribute)
    (element name first second : String) :
    decodeAttribute position raw ≠ .error (.duplicateAttribute element name first second) := by
  unfold decodeAttribute
  repeat' split
  all_goals simp

/-- A tag whose local name can be decoded is opened by the loop over its attributes. -/
theorem Frame.ofTag_of_localName {position : Nat} {tag : Tag} {name : String}
    (hname : tag.localName? = some name) :
    Frame.ofTag position tag =
      (addAttributes name [] (tag.rawAttributes.map (decodeAttribute position))).map
        (⟨name, ·, [], none⟩) := by
  unfold Tag.localName? at hname
  unfold Frame.ofTag
  cases hbytes : Text.Utf8.decode (localPart tag.name) with
  | error malformed =>
    rw [hbytes] at hname
    cases hname
  | ok found =>
    rw [hbytes] at hname
    injection hname with hname
    subst hname
    dsimp only
    rw [hbytes]
    dsimp only
    cases addAttributes found [] (tag.rawAttributes.map (decodeAttribute position)) <;> rfl

/-- Where the names of the attributes that can be decoded are distinct, the tag is opened by what
follows them. -/
theorem Frame.ofTag_of_nodup {position : Nat} {tag : Tag} {name : String} {attrs : Attributes}
    {rest : List (Except TreeError Attribute)} (hname : tag.localName? = some name)
    (hitems : tag.rawAttributes.map (decodeAttribute position) = attrs.map .ok ++ rest)
    (h : (attrs.map Attribute.name).Nodup) :
    Frame.ofTag position tag = (addAttributes name attrs rest).map (⟨name, ·, [], none⟩) := by
  rw [Frame.ofTag_of_localName hname, hitems, addAttributes_decoded h]

/-- A tag that repeats a name is refused, and the two attributes that are blamed are those of the
first repeat. -/
def Frame.BlamesRepeat (position : Nat) (tag : Tag) (name : String) (attrs : Attributes) : Prop :=
  ∃ i j first second, attrs.FirstRepeat i j first second ∧
    Frame.ofTag position tag =
      .error (.duplicateAttribute name second.name first.value second.value)

theorem Frame.blamesRepeat_of_not_nodup {position : Nat} {tag : Tag} {name : String}
    {attrs : Attributes} {rest : List (Except TreeError Attribute)}
    (hname : tag.localName? = some name)
    (hitems : tag.rawAttributes.map (decodeAttribute position) = attrs.map .ok ++ rest)
    (h : ¬(attrs.map Attribute.name).Nodup) : Frame.BlamesRepeat position tag name attrs := by
  obtain ⟨i, j, first, second, hrepeat, hadd⟩ := addAttributes_firstRepeat name rest h
  refine ⟨i, j, first, second, hrepeat, ?_⟩
  rw [Frame.ofTag_of_localName hname, hitems, hadd]
  rfl

/-- What a tag with a local name opens, by how far its attributes can be decoded.

* Where all of them can be, it opens an element if and only if their names are distinct, and the
  element has them in order.  Otherwise the first repeat is blamed.
* Where one of them cannot be, its error is that of the tag if and only if the names before it are
  distinct.  Otherwise the first repeat is blamed.
-/
theorem Frame.ofTag_names {position : Nat} {tag : Tag} {name : String}
    (hname : tag.localName? = some name) :
    (∀ attrs : Attributes, tag.rawAttributes.map (decodeAttribute position) = attrs.map .ok →
      ((∃ frame, Frame.ofTag position tag = .ok frame) ↔ (attrs.map Attribute.name).Nodup) ∧
      ((attrs.map Attribute.name).Nodup →
        Frame.ofTag position tag = .ok ⟨name, attrs, [], none⟩) ∧
      (¬(attrs.map Attribute.name).Nodup → Frame.BlamesRepeat position tag name attrs)) ∧
    ∀ (attrs : Attributes) (error : TreeError) (rest : List (Except TreeError Attribute)),
      tag.rawAttributes.map (decodeAttribute position) = attrs.map .ok ++ .error error :: rest →
      (Frame.ofTag position tag = .error error ↔ (attrs.map Attribute.name).Nodup) ∧
      (¬(attrs.map Attribute.name).Nodup → Frame.BlamesRepeat position tag name attrs) := by
  refine ⟨fun attrs hitems => ?_, fun attrs error rest hitems => ?_⟩
  · rw [← List.append_nil (attrs.map Except.ok)] at hitems
    have hopen := Frame.ofTag_of_nodup hname hitems
    have hblame := Frame.blamesRepeat_of_not_nodup hname hitems
    refine ⟨⟨fun hframe => ?_, fun h => ⟨_, hopen h⟩⟩, hopen, hblame⟩
    by_contra hrepeat
    obtain ⟨frame, hframe⟩ := hframe
    obtain ⟨_, _, _, _, _, herror⟩ := hblame hrepeat
    rw [hframe] at herror
    cases herror
  · have hfail := Frame.ofTag_of_nodup hname hitems
    have hblame := Frame.blamesRepeat_of_not_nodup hname hitems
    refine ⟨⟨fun hframe => ?_, hfail⟩, hblame⟩
    by_contra hrepeat
    obtain ⟨_, _, _, _, _, herror⟩ := hblame hrepeat
    rw [hframe] at herror
    injection herror with herror
    -- The error is that of an attribute by itself, so it is no repeat.
    have hmem : Except.error error ∈ tag.rawAttributes.map (decodeAttribute position) :=
      hitems ▸ List.mem_append_right _ List.mem_cons_self
    obtain ⟨raw, _, hraw⟩ := List.mem_map.mp hmem
    exact decodeAttribute_ne_duplicate position raw _ _ _ _ (herror ▸ hraw)

/-- A tag with two names that come twice, and after them a value that cannot be read. -/
def shelfTag : Tag :=
  ⟨ascii "m:shelf", ascii " n='0' k='1' k='2' n='3' j='&x;'"⟩

/-- The attributes of that tag as far as they can be decoded. -/
def shelfAttributes : Attributes :=
  [⟨"n", "0"⟩, ⟨"k", "1"⟩, ⟨"k", "2"⟩, ⟨"n", "3"⟩]

theorem decoded_shelf :
    shelfTag.rawAttributes.map (decodeAttribute 0) =
      shelfAttributes.map .ok ++ [.error (.xml (.badEntity (.unknown 1 2 "x")) 0)] := by
  have hraw : shelfTag.rawAttributes =
      [.ok ⟨ascii "n", ascii "0"⟩, .ok ⟨ascii "k", ascii "1"⟩, .ok ⟨ascii "k", ascii "2"⟩,
        .ok ⟨ascii "n", ascii "3"⟩, .ok ⟨ascii "j", ascii "&x;"⟩] :=
    (attributesFrom_of_found rfl).trans <| congrArg _ <|
    (attributesFrom_of_found rfl).trans <| congrArg _ <|
    (attributesFrom_of_found rfl).trans <| congrArg _ <|
    (attributesFrom_of_found rfl).trans <| congrArg _ <|
    (attributesFrom_of_found rfl).trans <| congrArg _ <| attributesFrom_of_ended rfl
  rw [hraw]
  rfl

/-- Neither the value that cannot be read nor the later repeat counts: the tag is refused for the
second `k`. -/
theorem Frame.ofTag_names_shelf :
    shelfTag.localName? = some "shelf" ∧
      shelfTag.rawAttributes.map (decodeAttribute 0) =
        shelfAttributes.map .ok ++ [.error (.xml (.badEntity (.unknown 1 2 "x")) 0)] ∧
      ¬(shelfAttributes.map Attribute.name).Nodup ∧
      Frame.ofTag 0 shelfTag = .error (.duplicateAttribute "shelf" "k" "1" "2") := by
  have hname : shelfTag.localName? = some "shelf" := rfl
  have hrepeat : ¬(shelfAttributes.map Attribute.name).Nodup := by decide
  obtain ⟨_, hblame⟩ := (Frame.ofTag_names hname).2 _ _ _ decoded_shelf
  obtain ⟨_, _, first, second, hfirst, herror⟩ := hblame hrepeat
  have hbefore : (([⟨"n", "0"⟩, ⟨"k", "1"⟩] : Attributes).map Attribute.name).Nodup := by decide
  have hat : ∃ i, shelfAttributes.FirstRepeat i 2 ⟨"k", "1"⟩ ⟨"k", "2"⟩ :=
    Attributes.firstRepeat_append [⟨"n", "3"⟩] hbefore rfl
  obtain ⟨_, hat⟩ := hat
  obtain ⟨_, _, rfl, rfl⟩ := hfirst.unique hat
  exact ⟨hname, decoded_shelf, hrepeat, herror⟩

end Xml

end ElementGrammar
