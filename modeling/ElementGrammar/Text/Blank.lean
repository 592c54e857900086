/-!
# Blank characters

A character is blank when it has the Unicode property White_Space.  The
module gives the three uses of blanks: trimming a text (`trim`), telling
whether anything is left of it (`isBlankText`), and cutting it into the
pieces between blanks (`words`).
-/

namespace ElementGrammar.Text

/-- Whether a character has the Unicode property White_Space. -/
def isBlank (c : Char) : Bool :=
  let n := c.toNat
  (0x9 ≤ n && n ≤ 0xD) || n == 0x20 || n == 0x85 || n == 0xA0 || n == 0x1680 ||
    (0x2000 ≤ n && n ≤ 0x200A) || n == 0x2028 || n == 0x2029 || n == 0x202F ||
    n == 0x205F || n == 0x3000

/-- The characters without the blanks at either end. -/
def trimChars (cs : List Char) : List Char :=
  ((cs.dropWhile isBlank).reverse.dropWhile isBlank).reverse

/-- The text without the blanks at either end. -/
def trim (s : String) : String :=
  String.ofList (trimChars s.toList)

def isBlankText (s : String) : Bool :=
  s.toList.all isBlank

/-- The pieces between blanks, where `piece` is what has been read of the
current one. -/
def wordsFrom (piece : List Char) : List Char → List (List Char)
  | [] => if piece.isEmpty then [] else [piece]
  | c :: cs =>
    if isBlank c then
      if piece.isEmpty then wordsFrom [] cs else piece :: wordsFrom [] cs
    else wordsFrom (piece ++ [c]) cs

/-- The longest pieces of a text that hold no blank, in order. -/
def words (s : String) : List String :=
  (wordsFrom [] s.toList).map String.ofList

end ElementGrammar.Text
