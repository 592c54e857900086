/-!
# Characters that may be left out

The ranges of the Unicode property Default_Ignorable_Code_Point, version 17: what
a program shows as nothing where it does not know better.  Most of them are
format characters, marks and unassigned; the fillers that stand for a missing
Hangul letter are letters themselves.
-/

namespace ElementGrammar.Text

/-- The ranges of Default_Ignorable_Code_Point, both ends included, in increasing
order. -/
def ignorableRanges : Array (Nat × Nat) := #[
  (0xAD, 0xAD), (0x34F, 0x34F), (0x61C, 0x61C), (0x115F, 0x1160), (0x17B4, 0x17B5),
  (0x180B, 0x180F), (0x200B, 0x200F), (0x202A, 0x202E), (0x2060, 0x206F), (0x3164, 0x3164),
  (0xFE00, 0xFE0F), (0xFEFF, 0xFEFF), (0xFFA0, 0xFFA0), (0xFFF0, 0xFFF8), (0x1BCA0, 0x1BCA3),
  (0x1D173, 0x1D17A), (0xE0000, 0xE0FFF)
]

/-- Whether a character may be shown as nothing. -/
def isIgnorable (c : Char) : Bool :=
  ignorableRanges.any fun (first, last) => first ≤ c.toNat && c.toNat ≤ last

end ElementGrammar.Text
