import ElementGrammar.Rule.Report

/-!
# Errors inside errors

An error lists others: those of a child that remains, those of children that were tried, or
those of alternatives.  In its report each of them has a number, by which it is introduced, and
then its own report a few columns deeper.

* `ParseError.Lists` is that an error lists another one, at an `Address`, and under which lines.
  `ParseError.Lists.lines_eq` is where these and the report of the other stand, and
  `ParseError.Lists.ends_before` that they do so in the order of the lists.
* `ParseError.Holds` follows addresses inwards and adds the lines up that come before.
  `ParseError.Holds.lines_eq` and `ParseError.Holds.ends_before` are the same for errors at any
  depth.
* `ParseError.Counted` is that the headline of an error says how many groups of lines follow,
  and of what remains only what there is (`ParseError.CountsOf`).

`ParseError.holds_shown` puts these together.  A list is reported as one group of lines for each
member, so where something stands is the length of the groups before it (`groupStart`).
-/

namespace ElementGrammar

/-! ## Indented lines -/

theorem length_indentLines (width : Nat) (lines : List String) :
    (indentLines width lines).length = lines.length :=
  List.length_map _

theorem indentLines_append (width : Nat) (lines more : List String) :
    indentLines width (lines ++ more) = indentLines width lines ++ indentLines width more :=
  List.map_append

theorem indentLines_indentLines (width more : Nat) (lines : List String) :
    indentLines width (indentLines more lines) = indentLines (more + width) lines := by
  rw [indentLines, indentLines, indentLines, List.map_map]
  refine List.map_congr_left fun line _ => ?_
  show _ ++ (_ ++ line) = _
  rw [← String.append_assoc, ← String.ofList_append, List.replicate_append_replicate,
    Nat.add_comm]

theorem indentLines_zero (lines : List String) : indentLines 0 lines = lines := by
  have hnothing : (String.ofList (List.replicate 0 ' ') ++ ·) = (id : String → String) :=
    funext fun _ => String.empty_append
  rw [indentLines, hnothing, List.map_id]

/-! ## Where some members of a list stand -/

section Places

variable {α β : Type} {l block part : List α} {n m i j : Nat}

/-- Some members of a list stand in it one after the other, after a number of others. -/
def StandsAt (l : List α) (n : Nat) (block : List α) : Prop :=
  ∃ before after, l = before ++ block ++ after ∧ before.length = n

theorem standsAt_middle (before block after : List α) :
    StandsAt (before ++ block ++ after) before.length block :=
  ⟨before, after, rfl, rfl⟩

theorem standsAt_append (before block : List α) :
    StandsAt (before ++ block) before.length block :=
  ⟨before, [], by simp, rfl⟩

/-- What comes after two members. -/
theorem standsAt_cons_cons (x y : α) (l : List α) : StandsAt (x :: y :: l) 2 l :=
  ⟨[x, y], [], by simp, rfl⟩

theorem StandsAt.trans (h : StandsAt l n block) (h' : StandsAt block m part) :
    StandsAt l (n + m) part := by
  obtain ⟨before, after, rfl, rfl⟩ := h
  obtain ⟨before', after', rfl, rfl⟩ := h'
  exact ⟨before ++ before', after' ++ after, by simp, by simp⟩

theorem StandsAt.map (f : α → β) (h : StandsAt l n block) :
    StandsAt (l.map f) n (block.map f) := by
  obtain ⟨before, after, rfl, rfl⟩ := h
  exact ⟨before.map f, after.map f, by simp, by simp⟩

theorem StandsAt.le_length (h : StandsAt l n block) : n + block.length ≤ l.length := by
  obtain ⟨before, after, rfl, rfl⟩ := h
  simp

theorem StandsAt.isInfix (h : StandsAt l n block) : block <:+: l := by
  obtain ⟨before, after, rfl, _⟩ := h
  exact ⟨before, after, rfl⟩

/-- How many members the groups before one have together. -/
def groupStart (groups : List (List α)) (i : Nat) : Nat :=
  (groups.take i).flatten.length

variable {groups : List (List α)} {group : List α}

/-- A group stands after those before it. -/
theorem standsAt_flatten (h : groups[i]? = some group) :
    StandsAt groups.flatten (groupStart groups i) group := by
  obtain ⟨hi, rfl⟩ := List.getElem?_eq_some_iff.mp h
  refine ⟨(groups.take i).flatten, (groups.drop (i + 1)).flatten, ?_, rfl⟩
  have hgroups : groups = groups.take i ++ groups[i] :: groups.drop (i + 1) := by
    rw [← List.drop_eq_getElem_cons hi, List.take_append_drop]
  calc groups.flatten = (groups.take i ++ groups[i] :: groups.drop (i + 1)).flatten :=
        congrArg List.flatten hgroups
    _ = (groups.take i).flatten ++ groups[i] ++ (groups.drop (i + 1)).flatten := by
        rw [List.flatten_append, List.flatten_cons, List.append_assoc]

/-- A group ends before a later one starts. -/
theorem groupStart_add_length_le (h : groups[i]? = some group) (hij : i < j) :
    groupStart groups i + group.length ≤ groupStart groups j := by
  obtain ⟨hi, rfl⟩ := List.getElem?_eq_some_iff.mp h
  have hnext : (groups.take (i + 1)).flatten = (groups.take i).flatten ++ groups[i] := by
    rw [List.take_succ_eq_append_getElem hi, List.flatten_append, List.flatten_singleton]
  obtain ⟨rest, hrest⟩ : groups.take (i + 1) <+: groups.take j := List.take_prefix_take_left hij
  rw [groupStart, groupStart, ← hrest, List.flatten_append, hnext, List.length_append,
    List.length_append]
  omega

/-- The member at a place has the group at that place. -/
theorem getElem?_mapIdx_of_some {xs : List α} {x : α} (one : Nat → α → List β)
    (h : xs[i]? = some x) : (xs.mapIdx one)[i]? = some (one i x) := by
  rw [List.getElem?_mapIdx, h, Option.map_some]

/-- What numbers the members of a list from `i` on gives a group for each of them. -/
theorem eq_flatten_mapIdx {number : Nat → List α → List β} {one : Nat → α → List β}
    (nil : ∀ i, number i [] = [])
    (cons : ∀ i x xs, number i (x :: xs) = one i x ++ number (i + 1) xs) (xs : List α) :
    number 0 xs = (xs.mapIdx one).flatten := by
  have hfrom (i : Nat) : number i xs = (xs.mapIdx fun k => one (i + k)).flatten := by
    induction xs generalizing i with
    | nil => exact nil i
    | cons x xs ih =>
      rw [cons, ih, List.mapIdx_cons, List.flatten_cons]
      simp only [Nat.add_zero, Nat.add_assoc, Nat.add_comm 1]
  simpa only [Nat.zero_add] using hfrom 0

end Places

namespace ParseError

/-! ## The lists of an error -/

/-- A place in the lists of an error. -/
inductive Address where
  /-- Among the errors of a child that remains. -/
  | history (child number : Nat)
  /-- Among the children that were tried. -/
  | child (number : Nat)
  /-- Among the alternatives that were tried. -/
  | variant (number : Nat)
  deriving DecidableEq

namespace Address

/-- The columns in front of the lines of an error that is listed there. -/
def columns : Address → Nat
  | .history .. => 6
  | .child _ => 4
  | .variant _ => 4

/-- The order of the lists. -/
inductive Before : Address → Address → Prop where
  | laterChild {child child' number number' : Nat} (h : child < child') :
    Before (.history child number) (.history child' number')
  | laterError {child number number' : Nat} (h : number < number') :
    Before (.history child number) (.history child number')
  | child {number number' : Nat} (h : number < number') : Before (.child number) (.child number')
  | variant {number number' : Nat} (h : number < number') :
    Before (.variant number) (.variant number')

end Address

/-- An error lists another one at an address, and introduces it by some lines. -/
inductive Lists : ParseError → Address → List String → ParseError → Prop where
  | history {x : Element} {attrs : Attributes} {children : List (Slot ParseError)}
      {text : Option String} {slot : Slot ParseError} {i j : Nat} {s : ParseError}
      (hslot : children[i]? = some slot) (hs : slot.errors[j]? = some s) :
      Lists (.remainingItems x attrs children text) (.history i j) [s!"Error {j}"] s
  | child {x : Element} {tried : List (Blame ParseError)} {blame : Blame ParseError} {i : Nat}
      (h : tried[i]? = some blame) :
      Lists (.noMatchingChild x tried) (.child i) [s!"Child {i}:", blame.child.intro] blame.error
  | variant {x : Element} {tried : List ParseError} {i : Nat} {s : ParseError}
      (h : tried[i]? = some s) :
      Lists (.noMatchingVariant x tried) (.variant i) [s!"Variant {i}:"] s

/-- The lines of one of the errors of a child that remains. -/
def pastLines (j : Nat) (e : ParseError) : List String :=
  s!"    Error {j}" :: indentLines 6 e.lines

/-- The lines of one of the alternatives that were tried. -/
def oneVariantLines (i : Nat) (e : ParseError) : List String :=
  s!"  Variant {i}:" :: indentLines 4 e.lines

theorem historyLines_eq (errors : List ParseError) :
    historyLines 0 errors = (errors.mapIdx pastLines).flatten :=
  eq_flatten_mapIdx (fun _ => by rw [historyLines]) (fun _ _ _ => by rw [historyLines]; rfl) errors

theorem slotLines_eq (children : List (Slot ParseError)) :
    slotLines 0 children = (children.mapIdx oneSlotLines).flatten :=
  eq_flatten_mapIdx (fun _ => by rw [slotLines]) (fun _ _ _ => by rw [slotLines]) children

theorem blameLines_eq (tried : List (Blame ParseError)) :
    blameLines 0 tried = (tried.mapIdx oneBlameLines).flatten :=
  eq_flatten_mapIdx (fun _ => by rw [blameLines]) (fun _ _ _ => by rw [blameLines]) tried

theorem variantLines_eq (tried : List ParseError) :
    variantLines 0 tried = (tried.mapIdx oneVariantLines).flatten :=
  eq_flatten_mapIdx (fun _ => by rw [variantLines]) (fun _ _ _ => by rw [variantLines]; rfl) tried

/-! ## Where a listed error stands -/

/-- The number of lines before those that introduce the error at an address. -/
def linesBefore : ParseError → Address → Nat
  | .remainingItems _ attrs children _, .history i j =>
    2 + (attributeLines attrs).length + groupStart (children.mapIdx oneSlotLines) i +
      (2 + groupStart ((children[i]?.elim [] Slot.errors).mapIdx pastLines) j)
  | .noMatchingChild _ tried, .child i => 2 + groupStart (tried.mapIdx oneBlameLines) i
  | .noMatchingVariant _ tried, .variant i => 2 + groupStart (tried.mapIdx oneVariantLines) i
  | _, _ => 0

/-- An error under the lines that introduce it, as it is listed at an address. -/
def Address.block (d : Address) (label : List String) (s : ParseError) : List String :=
  indentLines (d.columns - 2) label ++ indentLines d.columns s.lines

theorem pastLines_eq (i j : Nat) (s : ParseError) :
    pastLines j s = (Address.history i j).block [s!"Error {j}"] s := by
  have hline : "    Error " = String.ofList (List.replicate 4 ' ') ++ "Error " := by decide
  show ("    Error " ++ toString j) :: _ = (_ ++ ("Error " ++ toString j)) :: _
  rw [hline, String.append_assoc]
  rfl

theorem oneBlameLines_eq (i : Nat) (blame : Blame ParseError) :
    oneBlameLines i blame =
      (Address.child i).block [s!"Child {i}:", blame.child.intro] blame.error := by
  have hline : "  Child " = String.ofList (List.replicate 2 ' ') ++ "Child " := by decide
  cases blame with
  | mk child error =>
    rw [oneBlameLines]
    show ("  Child " ++ toString i ++ ":") :: _ = (_ ++ ("Child " ++ toString i ++ ":")) :: _
    rw [hline]
    simp only [String.append_assoc]
    rfl

theorem oneVariantLines_eq (i : Nat) (s : ParseError) :
    oneVariantLines i s = (Address.variant i).block [s!"Variant {i}:"] s := by
  have hline : "  Variant " = String.ofList (List.replicate 2 ' ') ++ "Variant " := by decide
  show ("  Variant " ++ toString i ++ ":") :: _ = (_ ++ ("Variant " ++ toString i ++ ":")) :: _
  rw [hline]
  simp only [String.append_assoc]
  rfl

theorem standsAt_oneSlotLines {slot : Slot ParseError} {j : Nat} {s : ParseError} (i : Nat)
    (hs : slot.errors[j]? = some s) :
    StandsAt (oneSlotLines i slot) (2 + groupStart (slot.errors.mapIdx pastLines) j)
      (pastLines j s) := by
  rw [oneSlotLines, historyLines_eq]
  exact (standsAt_cons_cons _ _ _).trans (standsAt_flatten (getElem?_mapIdx_of_some pastLines hs))

section Listed

variable {e s s' t : ParseError} {d d' : Address} {label label' : List String}

/-- A listed error stands under its introduction, after the errors listed before it. -/
theorem Lists.lines_eq (h : e.Lists d label s) :
    StandsAt e.lines (e.linesBefore d) (d.block label s) := by
  cases h with
  | @history x attrs children text slot i j s hslot hs =>
    have hchild : StandsAt (slotLines 0 children) _ (oneSlotLines i slot) :=
      slotLines_eq children ▸ standsAt_flatten (getElem?_mapIdx_of_some oneSlotLines hslot)
    rw [lines, linesBefore, hslot, ← pastLines_eq]
    exact (((standsAt_cons_cons _ _ _).trans (standsAt_middle _ _ _)).trans hchild).trans
      (standsAt_oneSlotLines i hs)
  | @child x tried blame i h =>
    rw [lines, linesBefore, ← oneBlameLines_eq, blameLines_eq]
    exact (standsAt_cons_cons _ _ _).trans
      (standsAt_flatten (getElem?_mapIdx_of_some oneBlameLines h))
  | @variant x tried i s h =>
    rw [lines, linesBefore, ← oneVariantLines_eq, variantLines_eq]
    exact (standsAt_cons_cons _ _ _).trans
      (standsAt_flatten (getElem?_mapIdx_of_some oneVariantLines h))

/-- An error ends before one that is listed later is introduced. -/
theorem Lists.ends_before (h : e.Lists d label s) (h' : e.Lists d' label' s')
    (hd : d.Before d') : e.linesBefore d + (d.block label s).length ≤ e.linesBefore d' := by
  cases hd with
  | @laterChild i i' j j' hi =>
    cases h with
    | history hslot hs =>
      have hinside := (standsAt_oneSlotLines i hs).le_length
      have hnext := groupStart_add_length_le (getElem?_mapIdx_of_some oneSlotLines hslot) hi
      rw [linesBefore, linesBefore, hslot, ← pastLines_eq]
      simp only [Option.elim_some]
      omega
  | @laterError i j j' hj =>
    cases h with
    | history hslot hs =>
      have hnext := groupStart_add_length_le (getElem?_mapIdx_of_some pastLines hs) hj
      rw [linesBefore, linesBefore, hslot, ← pastLines_eq]
      simp only [Option.elim_some]
      omega
  | @child i i' hi =>
    cases h with
    | child h =>
      have hnext := groupStart_add_length_le (getElem?_mapIdx_of_some oneBlameLines h) hi
      rw [linesBefore, linesBefore, ← oneBlameLines_eq]
      omega
  | @variant i i' hi =>
    cases h with
    | variant h =>
      have hnext := groupStart_add_length_le (getElem?_mapIdx_of_some oneVariantLines h) hi
      rw [linesBefore, linesBefore, ← oneVariantLines_eq]
      omega

/-- What is listed at an address, and how it is introduced, is one error. -/
theorem Lists.unique (h : e.Lists d label s) (h' : e.Lists d label' s') :
    label = label' ∧ s = s' := by
  cases h with
  | history hslot hs =>
    cases h' with
    | history hslot' hs' =>
      rw [hslot, Option.some.injEq] at hslot'
      rw [← hslot', hs, Option.some.injEq] at hs'
      exact ⟨rfl, hs'⟩
  | child h =>
    cases h' with
    | child h' =>
      rw [h, Option.some.injEq] at h'
      rw [h']
      exact ⟨rfl, rfl⟩
  | variant h =>
    cases h' with
    | variant h' => exact ⟨rfl, Option.some.inj (h.symm.trans h')⟩

/-- Of two addresses of an error one comes before the other. -/
theorem Lists.before_or_before (h : e.Lists d label s) (h' : e.Lists d' label' s') (hne : d ≠ d') :
    d.Before d' ∨ d'.Before d := by
  cases h with
  | @history _ _ _ _ _ i j _ hslot hs =>
    cases h' with
    | @history _ _ _ _ _ i' j' _ hslot' hs' =>
      rcases Nat.lt_trichotomy i i' with hi | rfl | hi
      · exact Or.inl (.laterChild hi)
      · rcases Nat.lt_trichotomy j j' with hj | rfl | hj
        · exact Or.inl (.laterError hj)
        · exact absurd rfl hne
        · exact Or.inr (.laterError hj)
      · exact Or.inr (.laterChild hi)
  | @child _ _ _ i h =>
    cases h' with
    | @child _ _ _ i' h' =>
      rcases Nat.lt_trichotomy i i' with hi | rfl | hi
      · exact Or.inl (.child hi)
      · exact absurd rfl hne
      · exact Or.inr (.child hi)
  | @variant _ _ i _ h =>
    cases h' with
    | @variant _ _ i' _ h' =>
      rcases Nat.lt_trichotomy i i' with hi | rfl | hi
      · exact Or.inl (.variant hi)
      · exact absurd rfl hne
      · exact Or.inr (.variant hi)

end Listed

/-! ## Errors at any depth -/

/-- The columns in front of the lines of an error that is found along some addresses. -/
def columnsAlong : List Address → Nat
  | [] => 0
  | d :: path => columnsAlong path + d.columns

@[simp] theorem columnsAlong_singleton (d : Address) : columnsAlong [d] = d.columns := by
  rw [columnsAlong, columnsAlong, Nat.zero_add]

/-- An error holds another one, which is found along some addresses, from the outside to the
inside, and is introduced by some lines after a number of others. -/
inductive Holds : ParseError → List Address → Nat → List String → ParseError → Prop where
  | listed {e s : ParseError} {d : Address} {label : List String} (h : e.Lists d label s) :
    Holds e [d] (e.linesBefore d) label s
  | inside {e s t : ParseError} {d : Address} {label label' : List String} {path : List Address}
      {first : Nat} (h : e.Lists d label s) (ht : Holds s path first label' t) :
    Holds e (d :: path) (e.linesBefore d + label.length + first) label' t

/-- One path leaves another in the order of the lists. -/
inductive Precedes : List Address → List Address → Prop where
  | here {d d' : Address} {path path' : List Address} (h : d.Before d') :
    Precedes (d :: path) (d' :: path')
  | inside {d : Address} {path path' : List Address} (h : Precedes path path') :
    Precedes (d :: path) (d :: path')

section Held

variable {e s t : ParseError} {path path' : List Address} {first first' : Nat}
  {label label' : List String}

theorem two_le_columns (d : Address) : 2 ≤ d.columns := by
  cases d <;> rw [Address.columns] <;> omega

theorem Holds.two_le_columnsAlong (h : e.Holds path first label s) : 2 ≤ columnsAlong path := by
  have hfirst (d : Address) (path : List Address) : 2 ≤ columnsAlong (d :: path) := by
    have hd := two_le_columns d
    rw [columnsAlong]
    omega
  cases h <;> exact hfirst _ _

/-- An error inside stands under its introduction, with the columns of its addresses in front of
each line. -/
theorem Holds.lines_eq (h : e.Holds path first label s) :
    StandsAt e.lines first (indentLines (columnsAlong path - 2) label ++
      indentLines (columnsAlong path) s.lines) := by
  induction h with
  | listed h =>
    rw [columnsAlong_singleton]
    exact h.lines_eq
  | @inside e s t d label label' path first h ht ih =>
    have htwo := ht.two_le_columnsAlong
    have hcolumns : columnsAlong (d :: path) = columnsAlong path + d.columns := rfl
    have hlabel : columnsAlong (d :: path) - 2 = columnsAlong path - 2 + d.columns := by
      omega
    have hreport : StandsAt (d.block label s) label.length (indentLines d.columns s.lines) := by
      rw [← length_indentLines (d.columns - 2) label]
      exact standsAt_append _ _
    have hinner := ih.map (String.ofList (List.replicate d.columns ' ') ++ ·)
    rw [hlabel, hcolumns, ← indentLines_indentLines, ← indentLines_indentLines,
      ← indentLines_append]
    exact (h.lines_eq.trans hreport).trans hinner

/-- The lines of an error inside, with those that introduce it, end with those of the listed
error that holds it. -/
theorem Holds.ends_within (h : e.Holds path first label s) :
    first + label.length + s.lines.length ≤ e.lines.length := by
  have hle := h.lines_eq.le_length
  rwa [List.length_append, length_indentLines, length_indentLines, ← Nat.add_assoc] at hle

theorem length_block (d : Address) (label : List String) (s : ParseError) :
    (d.block label s).length = label.length + s.lines.length := by
  rw [Address.block, List.length_append, length_indentLines, length_indentLines]

/-- The lines of an error inside are among those of the listed error that it is or is in. -/
theorem Holds.within_listed {d : Address} (h : e.Holds (d :: path) first label s) :
    ∃ outer t, e.Lists d outer t ∧ e.linesBefore d ≤ first ∧
      first + label.length + s.lines.length ≤ e.linesBefore d + (d.block outer t).length := by
  cases h with
  | listed h =>
    refine ⟨label, s, h, Nat.le_refl _, ?_⟩
    rw [length_block]
    omega
  | @inside _ t _ _ outer _ _ first h ht =>
    have hwithin := ht.ends_within
    refine ⟨outer, t, h, by omega, ?_⟩
    rw [length_block]
    omega

/-- An error inside ends before one that comes later is introduced. -/
theorem Holds.ends_before (h : e.Holds path first label s) (h' : e.Holds path' first' label' t)
    (hp : Precedes path path') : first + label.length + s.lines.length ≤ first' := by
  induction hp generalizing e first first' with
  | here hd =>
    obtain ⟨_, _, hlisted, _, hends⟩ := h.within_listed
    obtain ⟨_, _, hlisted', hstarts, _⟩ := h'.within_listed
    have hbefore := hlisted.ends_before hlisted' hd
    omega
  | inside hp ih =>
    cases h with
    | listed => cases hp
    | inside hlisted h =>
      cases h' with
      | listed => cases hp
      | inside hlisted' h' =>
        obtain ⟨rfl, rfl⟩ := hlisted.unique hlisted'
        have hbefore := ih h h'
        omega

/-- Of two errors at the same depth one comes before the other. -/
theorem Holds.precedes_or_precedes (h : e.Holds path first label s)
    (h' : e.Holds path' first' label' t) (hdepth : path.length = path'.length)
    (hne : path ≠ path') : Precedes path path' ∨ Precedes path' path := by
  induction h generalizing path' first' label' t with
  | @listed e s d label h =>
    obtain ⟨d', rfl⟩ := List.length_eq_one_iff.mp hdepth.symm
    have hd : d ≠ d' := fun hd => hne (congrArg (fun d => [d]) hd)
    obtain ⟨_, _, h', _⟩ := h'.within_listed
    exact (h.before_or_before h' hd).imp Precedes.here Precedes.here
  | @inside e s _ d _ _ path _ h ht ih =>
    cases path' with
    | nil => cases hdepth
    | cons d' path' =>
      by_cases hd : d = d'
      · subst hd
        cases h' with
        | listed =>
          rw [List.length_eq_zero_iff.mp (Nat.succ.inj hdepth)] at ht
          cases ht
        | inside h' ht' =>
          obtain ⟨rfl, rfl⟩ := h.unique h'
          have hpath : path ≠ path' := fun hpath => hne (congrArg (d :: ·) hpath)
          exact (ih ht' (Nat.succ.inj hdepth) hpath).imp Precedes.inside Precedes.inside
      · obtain ⟨_, _, h', _⟩ := h'.within_listed
        exact (h.before_or_before h' hd).imp Precedes.here Precedes.here

end Held

/-! ## Counts -/

/-- Groups of lines, one for each number from zero on, each with a title that has its number. -/
def Numbered (title : Nat → String) (count : Nat) (lines : List String) : Prop :=
  ∃ groups : List (List String), lines = groups.flatten ∧ groups.length = count ∧
    ∀ i group, groups[i]? = some group → group.head? = some (title i)

theorem numbered_mapIdx {α : Type} {title : Nat → String} {one : Nat → α → List String}
    (h : ∀ i x, (one i x).head? = some (title i)) (xs : List α) :
    Numbered title xs.length (xs.mapIdx one).flatten := by
  refine ⟨xs.mapIdx one, rfl, List.length_mapIdx, ?_⟩
  intro i group hgroup
  rw [List.getElem?_mapIdx, Option.map_eq_some_iff] at hgroup
  obtain ⟨x, _, rfl⟩ := hgroup
  exact h i x

/-- Texts of which neither ends as the other does are two texts, whatever comes before that. -/
theorem append_ne_of_ends (ends ends' : String) (h : ¬ends.toList <:+ ends'.toList)
    (h' : ¬ends'.toList <:+ ends.toList) (start start' : String) :
    start ++ ends ≠ start' ++ ends' := by
  intro heq
  have hchars : start.toList ++ ends.toList = start'.toList ++ ends'.toList := by
    rw [← String.toList_append, heq, String.toList_append]
  rcases List.append_eq_append_iff.mp hchars with ⟨more, _, hmore⟩ | ⟨more, _, hmore⟩
  · exact h' ⟨more, hmore.symm⟩
  · exact h ⟨more, hmore.symm⟩

section Remainder

variable {attrs : Attributes} {children : List (Slot ParseError)} {text : Option String}

/-- The counts of a headline: the number of attributes and that of children where there are any,
and whether there is a text, in this order and each once. -/
structure CountsOf (attrs : Attributes) (children : List (Slot ParseError))
    (text : Option String) (counts : List String) : Prop where
  ordered : counts.Sublist [s!"{attrs.length} attrs", s!"{children.length} children", "text"]
  attrs_iff : s!"{attrs.length} attrs" ∈ counts ↔ attrs ≠ []
  children_iff : s!"{children.length} children" ∈ counts ↔ children ≠ []
  text_iff : "text" ∈ counts ↔ text ≠ none

theorem mem_remainderCounts_iff {count : String} :
    count ∈ remainderCounts attrs children text ↔
      attrs ≠ [] ∧ count = s!"{attrs.length} attrs" ∨
        children ≠ [] ∧ count = s!"{children.length} children" ∨ text ≠ none ∧ count = "text" := by
  unfold remainderCounts
  rw [List.mem_append, List.mem_append, or_assoc]
  refine or_congr ?_ (or_congr ?_ ?_)
  · cases attrs <;> simp
  · cases children <;> simp
  · cases text <;> simp

theorem remainderCounts_sublist :
    (remainderCounts attrs children text).Sublist
      [s!"{attrs.length} attrs", s!"{children.length} children", "text"] := by
  have hpart {p : Prop} [Decidable p] {xs ys zs : List String} (hxs : xs.Sublist zs)
      (hys : ys.Sublist zs) : (if p then xs else ys).Sublist zs := by
    split
    · exact hxs
    · exact hys
  show List.Sublist _ ([_] ++ [_] ++ [_])
  exact ((hpart (List.nil_sublist _) (List.Sublist.refl _)).append
    (hpart (List.nil_sublist _) (List.Sublist.refl _))).append
    (hpart (List.Sublist.refl _) (List.nil_sublist _))

theorem countsOf_remainderCounts :
    CountsOf attrs children text (remainderCounts attrs children text) := by
  have hchildren : s!"{attrs.length} attrs" ≠ s!"{children.length} children" :=
    append_ne_of_ends " attrs" " children" (by decide) (by decide) _ _
  have hattrs : s!"{attrs.length} attrs" ≠ "text" :=
    append_ne_of_ends " attrs" "text" (by decide) (by decide) _ ""
  have htext : s!"{children.length} children" ≠ "text" :=
    append_ne_of_ends " children" "text" (by decide) (by decide) _ ""
  constructor
  case ordered => exact remainderCounts_sublist
  case attrs_iff =>
    simp only [mem_remainderCounts_iff, hchildren, hattrs, and_true, and_false, or_false]
  case children_iff =>
    simp only [mem_remainderCounts_iff, hchildren.symm, htext, and_true, and_false, or_false,
      false_or]
  case text_iff =>
    simp only [mem_remainderCounts_iff, hattrs.symm, htext.symm, and_true, and_false, false_or]

/-- The lines on attributes that remain: none, or all of them under a title. -/
inductive AttributesShown : Attributes → List String → Prop where
  | none : AttributesShown [] []
  | some {attrs : Attributes} (h : attrs ≠ []) : AttributesShown attrs
      ["  Remaining attributes:",
        "  " ++ String.intercalate "," (attrs.map fun a => a.name ++ "=" ++ a.value)]

theorem attributesShown_attributeLines (attrs : Attributes) :
    AttributesShown attrs (attributeLines attrs) := by
  cases attrs with
  | nil => exact .none
  | cons a attrs => exact .some (List.cons_ne_nil a attrs)

/-- The lines on a text that remains. -/
inductive TextShown : Option String → List String → Prop where
  | none : TextShown none []
  | some (text : String) :
    TextShown (some text) ["  Remaining text:", "  " ++ formatText text]

theorem textShown_textLines (text : Option String) : TextShown text (textLines text) := by
  cases text with
  | none => exact .none
  | some text => exact .some text

end Remainder

/-- The report of an error starts with a headline that counts what is listed under it, and the
element that the error is about. -/
def Counted : ParseError → Prop
  | .other message => (other message).lines = [message]
  | .remainingItems x attrs children text => ∃ body,
    (remainingItems x attrs children text).lines =
        ("Remaining items (" ++
          String.intercalate ", " (remainderCounts attrs children text) ++ ")") ::
          x.intro :: (attributeLines attrs ++ body ++ textLines text) ∧
      CountsOf attrs children text (remainderCounts attrs children text) ∧
      AttributesShown attrs (attributeLines attrs) ∧
      Numbered (fun i => s!"  Remaining child {i}:") children.length body ∧
      TextShown text (textLines text)
  | .noMatchingChild x tried => ∃ body,
    (noMatchingChild x tried).lines =
        s!"No matching child ({tried.length} tried)" :: x.intro :: body ∧
      Numbered (fun i => s!"  Child {i}:") tried.length body
  | .noMatchingVariant x tried => ∃ body,
    (noMatchingVariant x tried).lines =
        s!"No matching variant ({tried.length} tried)" :: x.intro :: body ∧
      Numbered (fun i => s!"  Variant {i}:") tried.length body

theorem counted (e : ParseError) : e.Counted := by
  cases e with
  | other message => rw [Counted, lines]
  | remainingItems x attrs children text =>
    refine ⟨slotLines 0 children, by rw [lines], countsOf_remainderCounts,
      attributesShown_attributeLines attrs, ?_, textShown_textLines text⟩
    rw [slotLines_eq]
    exact numbered_mapIdx (fun i slot => by rw [oneSlotLines]; rfl) children
  | noMatchingChild x tried =>
    refine ⟨blameLines 0 tried, by rw [lines], ?_⟩
    rw [blameLines_eq]
    exact numbered_mapIdx (fun i blame => by rw [oneBlameLines]; rfl) tried
  | noMatchingVariant x tried =>
    refine ⟨variantLines 0 tried, by rw [lines], ?_⟩
    rw [variantLines_eq]
    exact numbered_mapIdx (fun i e => rfl) tried

/-! ## Reports -/

/-- A report loses and misplaces no error inside.

* An error inside, at any depth, stands there line by line, with the columns of all its addresses
  in front of each line.  Right before it stands what introduces it, two columns less deep.
* Errors at one depth stand in the order of the lists, and each ends before the next one is
  introduced.
* The headline of the error, and of each error inside, counts what is listed under it, and what
  is listed has the numbers from zero on.  Of what remains it counts what there is, and the lines
  on attributes and on a text are there where these are. -/
theorem holds_shown (e : ParseError) :
    (∀ path first label s, e.Holds path first label s →
      StandsAt e.lines first (indentLines (columnsAlong path - 2) label ++
        indentLines (columnsAlong path) s.lines) ∧ s.Counted) ∧
    (∀ path first label s path' first' label' s', e.Holds path first label s →
      e.Holds path' first' label' s' → path.length = path'.length → path ≠ path' →
      Precedes path path' ∧ first + label.length + s.lines.length ≤ first' ∨
        Precedes path' path ∧ first' + label'.length + s'.lines.length ≤ first) ∧
    e.Counted := by
  refine ⟨?_, ?_, e.counted⟩
  · intro path first label s h
    exact ⟨h.lines_eq, s.counted⟩
  · intro path first label s path' first' label' s' h h' hdepth hne
    rcases h.precedes_or_precedes h' hdepth hne with hp | hp
    · exact Or.inl ⟨hp, h.ends_before h' hp⟩
    · exact Or.inr ⟨hp, h'.ends_before h hp⟩

/-- A triangle is neither of two shapes, and the third one leaves its text. -/
def triangleReport : ParseError :=
  .noMatchingVariant ⟨"triangle", [], [], some "wide"⟩
    [.other "Element name is not square", .other "Element name is not circle",
      .remainingItems ⟨"triangle", [], [], some "wide"⟩ [] [] (some "wide")]

/-- Two attributes and the only child of a shape, a triangle, remain. -/
def shapeReport : ParseError :=
  .remainingItems
    ⟨"shape", [⟨"kind", "flat"⟩, ⟨"id", "7"⟩], [⟨"triangle", [], [], some "wide"⟩], none⟩
    [⟨"kind", "flat"⟩, ⟨"id", "7"⟩] [⟨⟨"triangle", [], [], some "wide"⟩, [triangleReport]⟩] none

/-- The alternatives are reported last, the second one after the first, ten columns deep. -/
theorem holds_shown_shape :
    shapeReport.lines =
        ["Remaining items (2 attrs, 1 children)", "shape @ kind=flat,id=7",
          "  Remaining attributes:", "  kind=flat,id=7", "  Remaining child 0:", "  triangle",
          "    Error 0", "      No matching variant (3 tried)", "      triangle",
          "        Variant 0:", "          Element name is not square",
          "        Variant 1:", "          Element name is not circle",
          "        Variant 2:", "          Remaining items (text)", "          triangle",
          "            Remaining text:", "            wide"] ∧
      shapeReport.Holds [.history 0 0, .variant 1] 11 ["Variant 1:"]
        (.other "Element name is not circle") ∧
      StandsAt shapeReport.lines 11
        ["        Variant 1:", "          Element name is not circle"] ∧
      shapeReport.Holds [.history 0 0, .variant 0] 9 ["Variant 0:"]
        (.other "Element name is not square") ∧ 9 + 1 + 1 ≤ 11 ∧
      shapeReport.Counted := by
  have htriangle : shapeReport.Lists (.history 0 0) ["Error 0"] triangleReport :=
    .history rfl rfl
  have hsquare : triangleReport.Lists (.variant 0) ["Variant 0:"]
      (.other "Element name is not square") := .variant rfl
  have hcircle : triangleReport.Lists (.variant 1) ["Variant 1:"]
      (.other "Element name is not circle") := .variant rfl
  have hfirst : shapeReport.Holds [.history 0 0, .variant 0] 9 ["Variant 0:"]
      (.other "Element name is not square") := .inside htriangle (.listed hsquare)
  have hsecond : shapeReport.Holds [.history 0 0, .variant 1] 11 ["Variant 1:"]
      (.other "Element name is not circle") := .inside htriangle (.listed hcircle)
  obtain ⟨hstands, hordered, hcounted⟩ := holds_shown shapeReport
  have hplace := (hstands _ _ _ _ hsecond).1
  have hends := (hordered _ _ _ _ _ _ _ _ hfirst hsecond rfl (by decide)).elim (fun h => h.2)
    fun h => absurd h.2 (by decide)
  exact ⟨rfl, hsecond, hplace, hfirst, hends, hcounted⟩

end ParseError

end ElementGrammar
