import ElementGrammar.Text.GraphemeExtend
import ElementGrammar.Text.Ignorable
import ElementGrammar.Text.Unprintable

/-!
# Quoted text

A quoted text stands between two delimiters on one line, with every character
in it visible.  A backslash goes before the delimiter and before a backslash;
tab, line feed, carriage return and NUL have a letter each; every other
character that could not be seen is written by its number.
-/

namespace ElementGrammar.Text

/-- The number of a character in lower-case hexadecimal. -/
def hexNumber (c : Char) : String :=
  String.ofList (Nat.toDigits 16 c.toNat)

/-- The sound marks of halfwidth katakana.  They extend the character before them
and are letters all the same: each is drawn in a column of its own. -/
def isHalfwidthSoundMark (c : Char) : Bool :=
  c == '\uFF9E' || c == '\uFF9F'

/-- Whether a character cannot be seen where it stands alone. -/
def isHidden (c : Char) : Bool :=
  (extendsGrapheme c && !isHalfwidthSoundMark c) || isIgnorable c || isUnprintable c

/-- A character as it stands between two delimiters. -/
def quotedChar (delimiter c : Char) : String :=
  if c = '\x00' then "\\0"
  else if c = '\t' then "\\t"
  else if c = '\n' then "\\n"
  else if c = '\r' then "\\r"
  else if c = '\\' then "\\\\"
  else if c = delimiter then "\\" ++ c.toString
  else if ' ' ≤ c ∧ c ≤ '~' then c.toString
  else if isHidden c then
    "\\u\x7b" ++ hexNumber c ++ "\x7d"
  else c.toString

def quoteText (s : String) : String :=
  "\"" ++ String.join (s.toList.map (quotedChar '"')) ++ "\""

def quoteChar (c : Char) : String :=
  "'" ++ quotedChar '\'' c ++ "'"

end ElementGrammar.Text
