import Mathlib.Data.Nat.Digits.Defs
import ElementGrammar.Text.Scalar

/-!
# Numbers read from text

A count is an optional plus sign and one or more decimal digits whose number fits in 32
bits (`readCount_eq_ok_iff`).  The digits are read from the left and the range is checked at
each one; a number never gets smaller by more digits, so this is the same as to check the
whole number (`readDigits_eq_ok_iff`).

`Spells` says which number a text is, without reading it, and `readCount_eq_ok_iff_spells` that
counts are read as just these.  `readCount_repr` is that the decimal digits of a number are read
as that number.
-/

namespace ElementGrammar.Text

variable {c : Char} {cs : List Char} {n : Nat}

theorem digitValue?_of_isDigit (h : c.isDigit = true) :
    digitValue? c = some (c.toNat - '0'.toNat) := by
  have hrange : '0' ≤ c ∧ c ≤ '9' := by simpa [Char.isDigit, Char.le_def] using h
  rw [digitValue?, if_pos hrange]

theorem digitValue?_of_not_isDigit (h : ¬c.isDigit = true) : digitValue? c = none := by
  have hrange : ¬('0' ≤ c ∧ c ≤ '9') := by simpa [Char.isDigit, Char.le_def] using h
  rw [digitValue?, if_neg hrange]

/-- More digits never make a number smaller. -/
theorem le_ofDigitChars (cs : List Char) (n : Nat) : n ≤ Nat.ofDigitChars 10 cs n := by
  induction cs generalizing n with
  | nil => exact Nat.le_refl n
  | cons c cs ih =>
    rw [Nat.ofDigitChars_cons]
    exact Nat.le_trans (by omega) (ih _)

/-- Digits are read as their number, where it is in the range. -/
theorem readDigits_eq_ok_iff {greatest value : Nat} {w : Int} (hvalue : value ≤ greatest) :
    readDigits ⟨0, greatest⟩ false value cs = .ok w ↔
      (∀ c ∈ cs, c.isDigit = true) ∧ Nat.ofDigitChars 10 cs value ≤ greatest ∧
        w = Nat.ofDigitChars 10 cs value := by
  induction cs generalizing value with
  | nil =>
    rw [readDigits, Except.ok.injEq, Nat.ofDigitChars_nil]
    constructor
    · rintro rfl
      exact ⟨fun _ hc => absurd hc List.not_mem_nil, hvalue, rfl⟩
    · rintro ⟨_, _, rfl⟩
      rfl
  | cons c cs ih =>
    rw [readDigits, List.forall_mem_cons, Nat.ofDigitChars_cons]
    by_cases hc : c.isDigit = true
    · simp only [digitValue?_of_isDigit hc, hc, true_and]
      have hnext : (value : Int) * 10 + ((c.toNat - '0'.toNat : Nat) : Int) =
          ((10 * value + (c.toNat - '0'.toNat) : Nat) : Int) := by
        push_cast
        ring
      simp only [hnext, Bool.false_eq_true, if_false]
      generalize 10 * value + (c.toNat - '0'.toNat) = next
      by_cases hrange : next ≤ greatest
      · rw [if_neg (by omega), if_neg (by omega)]
        exact ih hrange
      · rw [if_pos (by omega)]
        have hle := le_ofDigitChars cs next
        constructor
        · rintro ⟨⟩
        · rintro ⟨_, hfits, _⟩
          omega
    · simp [digitValue?_of_not_isDigit hc, hc]

/-- The greatest number of 32 bits. -/
def greatestCount : Nat := 0xFFFFFFFF

theorem unsigned_eq : IntegerRange.unsigned 32 = ⟨0, greatestCount⟩ := by
  decide

theorem map_eq_ok_iff {α β ε : Type} {r : Except ε α} {f : α → β} {b : β} :
    r.map f = .ok b ↔ ∃ a, r = .ok a ∧ f a = b := by
  cases r <;> simp [Except.map]

/-- Digits without a sign are read as their number, where there are any. -/
theorem readUnsigned_eq_ok_iff :
    (readUnsigned (.unsigned 32) false cs).map Int.toNat = .ok n ↔
      cs ≠ [] ∧ (∀ c ∈ cs, c.isDigit = true) ∧ Nat.ofDigitChars 10 cs 0 ≤ greatestCount ∧
        n = Nat.ofDigitChars 10 cs 0 := by
  cases cs with
  | nil =>
    constructor
    · rintro ⟨⟩
    · rintro ⟨hne, _⟩
      exact absurd rfl hne
  | cons c cs =>
    show (readDigits (.unsigned 32) false ((0 : Nat) : Int) (c :: cs)).map Int.toNat = .ok n ↔ _
    rw [unsigned_eq, map_eq_ok_iff]
    simp only [readDigits_eq_ok_iff (Nat.zero_le greatestCount)]
    constructor
    · rintro ⟨_, ⟨hdigits, hfits, rfl⟩, rfl⟩
      exact ⟨List.cons_ne_nil c cs, hdigits, hfits, Int.toNat_natCast _⟩
    · rintro ⟨_, hdigits, hfits, rfl⟩
      exact ⟨_, ⟨hdigits, hfits, rfl⟩, Int.toNat_natCast _⟩

/-- A text is read as a count where it is an optional plus sign and digits, one at least,
whose number fits in 32 bits. -/
theorem readCount_eq_ok_iff {s : String} :
    readCount s = .ok n ↔
      ∃ cs, (s.toList = cs ∨ s.toList = '+' :: cs) ∧ cs ≠ [] ∧ (∀ c ∈ cs, c.isDigit = true) ∧
        Nat.ofDigitChars 10 cs 0 ≤ greatestCount ∧ n = Nat.ofDigitChars 10 cs 0 := by
  have hplus : ¬ '+'.isDigit = true := by decide
  have hminus : ¬ '-'.isDigit = true := by decide
  unfold readCount readInteger
  -- The text is empty, has a plus sign, has a minus sign, or starts with anything else.
  split
  · rename_i hs
    rw [hs]
    constructor
    · rintro ⟨⟩
    · rintro ⟨_, rfl | h, hne, _⟩
      · exact absurd rfl hne
      · cases h
  · rename_i cs hs
    rw [readUnsigned_eq_ok_iff, hs]
    constructor
    · exact fun h => ⟨cs, Or.inr rfl, h⟩
    · rintro ⟨cs', rfl | hcs, h⟩
      · exact absurd (h.2.1 _ List.mem_cons_self) hplus
      · injection hcs with _ hcs
        rwa [hcs]
  · rename_i cs hs
    rw [hs]
    constructor
    · rintro ⟨⟩
    · rintro ⟨_, rfl | h, _, hdigits, _⟩
      · exact absurd (hdigits _ List.mem_cons_self) hminus
      · cases h
  · rename_i hplain _
    rw [readUnsigned_eq_ok_iff]
    constructor
    · exact fun h => ⟨s.toList, Or.inl rfl, h⟩
    · rintro ⟨cs, rfl | hcs, h⟩
      · exact h
      · exact (hplain cs hcs).elim

/-- A text is an optional plus sign and decimal digits, one at least and with any number of zeros
before the others, of a number that has 32 bits at most. -/
def Spells (s : String) (n : Nat) : Prop :=
  ∃ cs, (s.toList = cs ∨ s.toList = '+' :: cs) ∧ cs ≠ [] ∧ (∀ c ∈ cs, c.isDigit = true) ∧
    Nat.ofDigitChars 10 cs 0 = n ∧ n < 4294967296

/-- Counts are read as the numbers that are spelled, and no other text as any. -/
theorem readCount_eq_ok_iff_spells {s : String} : readCount s = .ok n ↔ Spells s n := by
  rw [readCount_eq_ok_iff, Spells]
  refine exists_congr fun cs => and_congr_right fun _ => and_congr_right fun _ =>
    and_congr_right fun _ => ?_
  rw [greatestCount, eq_comm (a := n), and_comm]
  refine and_congr_right fun hnumber => ?_
  rw [hnumber]
  exact Nat.lt_succ_iff.symm

theorem readCount_le {s : String} (h : readCount s = .ok n) : n ≤ greatestCount := by
  obtain ⟨cs, _, _, _, hfits, rfl⟩ := readCount_eq_ok_iff.mp h
  exact hfits

/-- The decimal digits of a count are read as that count. -/
theorem readCount_repr (h : n ≤ greatestCount) : readCount n.repr = .ok n := by
  have hnumber : Nat.ofDigitChars 10 (Nat.toDigits 10 n) 0 = n :=
    Nat.ofDigitChars_toDigits (by omega) (by omega)
  refine readCount_eq_ok_iff.mpr ⟨Nat.toDigits 10 n, Or.inl Nat.toList_repr, ?_, ?_, ?_, ?_⟩
  · exact Nat.toDigits_ne_nil
  · exact fun c hc => Nat.isDigit_of_mem_toDigits (by omega) (by omega) hc
  · rwa [hnumber]
  · exact hnumber.symm

end ElementGrammar.Text
