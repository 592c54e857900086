import ElementGrammar.Text.Scalar
import ElementGrammar.Text.Utf8

/-!
# Texts on one line

A text is on one line where no line feed is in it.

* `physicalLines` are the lines that a text is shown on.  Texts on one line each, with line
  feeds between them, are shown as they are (`physicalLines_intercalate`).
* `oneLine_decode` is that bytes without a line feed spell a text without one.  A character of
  several bytes is not a line feed, because the first of them, or a bound on the second,
  makes its number too great.
-/

namespace ElementGrammar.Text

/-- A text without a line feed. -/
def OneLine (s : String) : Prop :=
  '\n' ∉ s.toList

instance (s : String) : Decidable (OneLine s) :=
  inferInstanceAs (Decidable ('\n' ∉ s.toList))

variable {s t : String} {ss : List String}

@[simp] theorem oneLine_append : OneLine (s ++ t) ↔ OneLine s ∧ OneLine t := by
  simp [OneLine, String.toList_append]

theorem oneLine_repr (n : Nat) : OneLine n.repr := by
  intro h
  rw [Nat.toList_repr] at h
  have hdigit := Nat.isDigit_of_mem_toDigits (by omega) (by omega) h
  exact absurd hdigit (by decide)

theorem oneLine_spaces (width : Nat) : OneLine (String.ofList (List.replicate width ' ')) := by
  intro h
  rw [String.toList_ofList] at h
  exact absurd (List.eq_of_mem_replicate h) (by decide)

theorem oneLine_scalarError (e : ScalarError) : OneLine (toString e) := by
  cases e <;> decide

/-- Texts with something on one line between them are on one line where each of them is. -/
theorem oneLine_intercalate (hs : OneLine s) :
    OneLine (String.intercalate s ss) ↔ ∀ t ∈ ss, OneLine t := by
  have hchars : '\n' ∉ List.intercalate s.toList (ss.map String.toList) ↔ ∀ t ∈ ss, OneLine t := by
    induction ss with
    | nil => simp [List.intercalate]
    | cons t ss ih =>
      cases ss with
      | nil => simp [List.intercalate, OneLine]
      | cons t' ss =>
        rw [List.map_cons, List.map_cons, List.intercalate_cons_cons, ← List.map_cons,
          List.mem_append, List.mem_append, not_or, not_or, ih]
        rw [List.forall_mem_cons (a := t)]
        exact ⟨fun h => ⟨h.1.1, h.2⟩, fun h => ⟨⟨h.1, hs⟩, h.2⟩⟩
  rw [OneLine, String.toList_intercalate]
  exact hchars

/-! ## Lines as they are shown -/

/-- The lines that a text is shown on. -/
def physicalLines (s : String) : List String :=
  (s.toList.splitOn '\n').map String.ofList

/-- Texts on one line each are the lines of what they make up with line feeds between them. -/
theorem physicalLines_intercalate (hne : ss ≠ []) (h : ∀ s ∈ ss, OneLine s) :
    physicalLines (String.intercalate "\n" ss) = ss := by
  have hsep : "\n".toList = ['\n'] := rfl
  have hall : ∀ cs ∈ ss.map String.toList, '\n' ∉ cs := by
    intro cs hcs
    obtain ⟨s, hs, rfl⟩ := List.mem_map.mp hcs
    exact h s hs
  rw [physicalLines, String.toList_intercalate, hsep,
    List.splitOn_intercalate '\n' hall (by simpa using hne), List.map_map]
  simp [Function.comp_def]

/-! ## Bytes without a line feed -/

namespace Utf8

/-- The byte of a line feed. -/
def lineFeed : UInt8 := 0x0A

/-- Where the number of a character that has been entered cannot be as small as that of a line
feed any more. -/
def State.Past : State → Prop
  | .boundary => True
  | .inside _ _ low _ code => 0x80 ≤ low ∧ 16 ≤ code * 64 + (low.toNat - 0x80)

theorem ofNat_ne_lineFeed {n : Nat} (h : n ≠ 10) : Char.ofNat n ≠ '\n' := by
  intro heq
  have hnat : (Char.ofNat n).toNat = 10 := congrArg Char.toNat heq
  by_cases hvalid : n.isValidChar
  · rw [Char.ofNat, dif_pos hvalid] at hnat
    exact h hnat
  · rw [Char.ofNat, dif_neg hvalid] at hnat
    exact absurd hnat (by decide)

theorem past_boundary : State.boundary.Past :=
  trivial

/-- Past a lower bound on the next byte and the number so far. -/
theorem past_inside {seen missing code : Nat} {low high : UInt8} (hlow : 0x80 ≤ low)
    (h : 16 ≤ code * 64 + (low.toNat - 0x80)) : (State.inside seen missing low high code).Past :=
  ⟨hlow, h⟩

theorem toNat_le_of_not_lt {b bound : UInt8} (h : ¬ b < bound) : bound.toNat ≤ b.toNat := by
  rw [UInt8.lt_iff_toNat_lt] at h
  exact Nat.le_of_not_lt h

/-- The first byte of its kind asks for more of the second; any other says enough by itself. -/
theorem past_of_first {b first least high : UInt8} {missing : Nat} (hb : first.toNat ≤ b.toNat)
    (hleast : 0x90 ≤ least.toNat) :
    (State.inside 1 missing (if b = first then least else 0x80) high
      (b.toNat - first.toNat)).Past := by
  by_cases hfirst : b = first
  · rw [if_pos hfirst]
    refine past_inside ?_ ?_
    · rw [UInt8.le_iff_toNat_le]
      exact Nat.le_trans (by decide) hleast
    · omega
  · rw [if_neg hfirst]
    refine past_inside (by decide) ?_
    have hne : b.toNat ≠ first.toNat := fun hnat => hfirst (UInt8.toNat_inj.mp hnat)
    show 16 ≤ (b.toNat - first.toNat) * 64 + 0
    omega

/-- A first byte is a whole character, which is a line feed only if the byte is, or it leaves
the decoder past that. -/
theorem lead_cases {b : UInt8} (hb : b ≠ lineFeed) :
    (∃ c, lead b = .whole c ∧ c ≠ '\n') ∨ lead b = .broken ∨
      ∃ missing low high code, lead b = .opens missing low high code ∧
        (State.inside 1 missing low high code).Past := by
  unfold lead
  split
  · refine Or.inl ⟨_, rfl, ofNat_ne_lineFeed fun hnat => hb ?_⟩
    exact UInt8.toNat_inj.mp hnat
  · split
    · exact Or.inr (Or.inl rfl)
    · rename_i hlead
      split
      · refine Or.inr (Or.inr ⟨_, _, _, _, rfl, past_inside (by decide) ?_⟩)
        have hle : 0xC2 ≤ b.toNat := toNat_le_of_not_lt hlead
        show 16 ≤ (b.toNat - 0xC0) * 64 + 0
        omega
      · rename_i htwo
        split
        · refine Or.inr (Or.inr ⟨_, _, _, _, rfl, ?_⟩)
          exact past_of_first (toNat_le_of_not_lt htwo) (by decide)
        · rename_i hthree
          split
          · refine Or.inr (Or.inr ⟨_, _, _, _, rfl, ?_⟩)
            exact past_of_first (toNat_le_of_not_lt hthree) (by decide)
          · exact Or.inr (Or.inl rfl)

/-- A byte that goes on with a character past a line feed leaves it there. -/
theorem extendCode_past {low b : UInt8} {code : Nat} (hlow : 0x80 ≤ low) (hb : low ≤ b)
    (h : 16 ≤ code * 64 + (low.toNat - 0x80)) : 16 ≤ extendCode code b := by
  rw [UInt8.le_iff_toNat_le] at hlow hb
  have hlow' : 0x80 ≤ low.toNat := hlow
  unfold extendCode
  omega

theorem map_cons_eq_ok {ε : Type} {r : Except ε (List Char)} {c : Char} {cs : List Char}
    (h : r.map (c :: ·) = .ok cs) : ∃ rest, r = .ok rest ∧ cs = c :: rest := by
  cases r with
  | error e => cases h
  | ok rest =>
    injection h with h
    exact ⟨rest, rfl, h.symm⟩

/-- What is decoded from bytes without a line feed has none. -/
theorem decodeFrom_oneLine {valid : Nat} {state : State} {bytes : List UInt8} {cs : List Char}
    (hpast : state.Past) (hbytes : lineFeed ∉ bytes) (h : decodeFrom valid state bytes = .ok cs) :
    '\n' ∉ cs := by
  induction bytes generalizing valid state cs with
  | nil =>
    cases state with
    | boundary =>
      injection h with h
      rw [← h]
      exact List.not_mem_nil
    | inside => cases h
  | cons b bs ih =>
    obtain ⟨hb, hbs⟩ := List.ne_and_not_mem_of_not_mem_cons hbytes
    cases state with
    | boundary =>
      rw [decodeFrom] at h
      rcases lead_cases hb.symm with ⟨c, hlead, hc⟩ | hlead | ⟨missing, low, high, code, hlead, hin⟩
      · rw [hlead] at h
        obtain ⟨rest, hrest, rfl⟩ := map_cons_eq_ok h
        exact List.not_mem_cons_of_ne_of_not_mem hc.symm (ih past_boundary hbs hrest)
      · rw [hlead] at h
        cases h
      · rw [hlead] at h
        exact ih hin hbs h
    | inside seen missing low high code =>
      obtain ⟨hlow, hcode⟩ := hpast
      unfold decodeFrom at h
      split at h
      · rename_i hbounds
        have hnext := extendCode_past hlow hbounds.1 hcode
        cases missing with
        | zero =>
          obtain ⟨rest, hrest, rfl⟩ := map_cons_eq_ok h
          have hne : extendCode code b ≠ 10 := by omega
          exact List.not_mem_cons_of_ne_of_not_mem (ofNat_ne_lineFeed hne).symm
            (ih past_boundary hbs hrest)
        | succ m =>
          refine ih (past_inside (by decide) ?_) hbs h
          show 16 ≤ extendCode code b * 64 + 0
          omega
      · cases h

/-- Bytes without a line feed spell a text on one line. -/
theorem oneLine_decode {bytes : List UInt8} {s : String} (hbytes : lineFeed ∉ bytes)
    (h : decode bytes = .ok s) : OneLine s := by
  unfold decode at h
  cases hchars : decodeFrom 0 .boundary bytes with
  | error malformed =>
    rw [hchars] at h
    cases h
  | ok cs =>
    rw [hchars] at h
    injection h with h
    rw [← h, OneLine, String.toList_ofList]
    exact decodeFrom_oneLine past_boundary hbytes hchars

end Utf8

end ElementGrammar.Text
