import ElementGrammar.Xml.Fault

/-!
# Tags

The content of an opening tag is a name and, from the first space on,
attributes.  `Tag.rawAttributes` cuts the attributes out, each as the bytes of
its name and of its value, up to the first one that is not written as an
attribute.
-/

namespace ElementGrammar.Xml

/-- Whether a byte is a space, tab, carriage return or line feed. -/
def isSpace (b : UInt8) : Bool :=
  b == ' '.toUInt8 || b == '\t'.toUInt8 || b == '\r'.toUInt8 || b == '\n'.toUInt8

/-- The content of an opening tag, without the slash of an empty one. -/
structure Tag where
  /-- The bytes before the first space. -/
  name : List UInt8
  /-- The bytes from the first space on. -/
  rest : List UInt8
  deriving DecidableEq, Repr

/-- Cuts the content of a tag after its name. -/
def Tag.ofContent (content : List UInt8) : Tag :=
  ⟨content.takeWhile (!isSpace ·), content.dropWhile (!isSpace ·)⟩

/-- The part of a name after its last colon. -/
def localPart (name : List UInt8) : List UInt8 :=
  (name.reverse.takeWhile (· != ':'.toUInt8)).reverse

/-- The bytes of the name and of the value of an attribute. -/
structure RawAttribute where
  name : List UInt8
  value : List UInt8
  deriving DecidableEq, Repr

/-- What stands at the front of the attributes of a tag. -/
inductive AttributeStep where
  | ended
  /-- An attribute, with what follows it and the position of that. -/
  | found (raw : RawAttribute) (position : Nat) (rest : List UInt8)
  | fault (cause : AttributeFault)

/-- The quoted value at a position, of the attribute with the given name. -/
def quotedValue (name : List UInt8) (position : Nat) : List UInt8 → AttributeStep
  | [] => .fault (.expectedValue position)
  | quote :: bytes =>
    if quote != '"'.toUInt8 && quote != '\''.toUInt8 then
      .fault (.unquotedValue position)
    else
      let value := bytes.takeWhile (· != quote)
      let stop := position + 1 + value.length
      match bytes.dropWhile (· != quote) with
      | [] => .fault (.expectedQuote stop quote)
      | _ :: rest => .found ⟨name, value⟩ (stop + 1) rest

/-- The equals sign at a position and the value after it. -/
def equalsValue (name : List UInt8) (position : Nat) : List UInt8 → AttributeStep
  | [] => .fault (.expectedEquals position)
  | b :: bytes =>
    if b != '='.toUInt8 then .fault (.expectedEquals position)
    else
      quotedValue name (position + 1 + (bytes.takeWhile isSpace).length)
        (bytes.dropWhile isSpace)

/-- Whether a byte ends the name of an attribute that it does not start. -/
def endsName (b : UInt8) : Bool :=
  b == '='.toUInt8 || isSpace b

/-- The attribute at a position.  Its first byte belongs to its name, whatever
it is. -/
def attributeAt (position : Nat) : List UInt8 → AttributeStep
  | [] => .ended
  | first :: bytes =>
    let more := bytes.takeWhile (!endsName ·)
    let after := bytes.dropWhile (!endsName ·)
    equalsValue (first :: more)
      (position + 1 + more.length + (after.takeWhile isSpace).length)
      (after.dropWhile isSpace)

def nextAttribute (position : Nat) (bytes : List UInt8) : AttributeStep :=
  attributeAt (position + (bytes.takeWhile isSpace).length) (bytes.dropWhile isSpace)

/-! ## Every attribute takes bytes -/

theorem length_dropWhile_le {α : Type} (p : α → Bool) (xs : List α) :
    (xs.dropWhile p).length ≤ xs.length :=
  (List.dropWhile_suffix p).length_le

theorem quotedValue_rest_lt {name bytes rest : List UInt8} {position next : Nat}
    {a : RawAttribute} (h : quotedValue name position bytes = .found a next rest) :
    rest.length < bytes.length := by
  unfold quotedValue at h
  split at h
  · cases h
  · rename_i quote tail
    split at h
    · cases h
    · dsimp only at h
      split at h
      · cases h
      · rename_i b after hafter
        injection h with _ _ hrest
        have hle := length_dropWhile_le (· != quote) tail
        rw [hafter, List.length_cons] at hle
        rw [← hrest, List.length_cons]
        omega

theorem equalsValue_rest_lt {name bytes rest : List UInt8} {position next : Nat}
    {a : RawAttribute} (h : equalsValue name position bytes = .found a next rest) :
    rest.length < bytes.length := by
  unfold equalsValue at h
  split at h
  · cases h
  · rename_i b tail
    split at h
    · cases h
    · have hlt := quotedValue_rest_lt h
      have hle := length_dropWhile_le isSpace tail
      rw [List.length_cons]
      omega

theorem nextAttribute_rest_lt {bytes rest : List UInt8} {position next : Nat}
    {a : RawAttribute} (h : nextAttribute position bytes = .found a next rest) :
    rest.length < bytes.length := by
  unfold nextAttribute attributeAt at h
  split at h
  · cases h
  · rename_i first tail hbytes
    have hlt := equalsValue_rest_lt h
    have h₁ := length_dropWhile_le isSpace (tail.dropWhile (!endsName ·))
    have h₂ := length_dropWhile_le (!endsName ·) tail
    have h₃ := length_dropWhile_le isSpace bytes
    rw [hbytes, List.length_cons] at h₃
    omega

/-- The attributes from a position on, up to the first fault. -/
def attributesFrom (position : Nat) (bytes : List UInt8) :
    List (Except AttributeFault RawAttribute) :=
  match _h : nextAttribute position bytes with
  | .ended => []
  | .fault fault => [.error fault]
  | .found a next rest => .ok a :: attributesFrom next rest
termination_by bytes.length
decreasing_by exact nextAttribute_rest_lt _h

/-- The attributes of a tag, up to the first that is not written as one. -/
def Tag.rawAttributes (tag : Tag) : List (Except AttributeFault RawAttribute) :=
  attributesFrom tag.name.length tag.rest

end ElementGrammar.Xml
