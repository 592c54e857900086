import ElementGrammar.Xml.Tag

/-!
# Events of a document

A document is a row of events: tags, texts, and other markup, each with the
byte at which it starts.  `Transcript.ofBytes` cuts a document into events.  It
stops at the first fault, and keeps it: markup that does not end, markup that
opens no construct, or a closing tag that does not name the innermost open
element.  Whether the events make up a tree is not asked here.
-/

namespace ElementGrammar.Xml

inductive Event where
  | startTag (tag : Tag)
  | emptyTag (tag : Tag)
  | endTag (name : List UInt8)
  | text (bytes : List UInt8)
  | cdata (bytes : List UInt8)
  | instruction (bytes : List UInt8)
  | comment (bytes : List UInt8)
  | declaration (bytes : List UInt8)
  | doctype (bytes : List UInt8)
  deriving DecidableEq, Repr

/-- Something with the byte at which it starts. -/
structure Located (α : Type) where
  position : Nat
  item : α
  deriving DecidableEq, Repr

/-- The events of a document, and the fault at which they stop. -/
structure Transcript where
  events : List (Located Event)
  fault : Option (Located Fault)
  deriving DecidableEq, Repr

/-! ## Cutting bytes -/

def ascii (s : String) : List UInt8 :=
  s.toList.map Char.toUInt8

/-- Cuts bytes at the first byte on which `step` gives no next state.  That
byte belongs to neither part. -/
def cut {σ : Type} (step : σ → UInt8 → Option σ) :
    σ → List UInt8 → Option (List UInt8 × List UInt8)
  | _, [] => none
  | s, b :: bs =>
    match step s b with
    | none => some ([], bs)
    | some s' => (cut step s' bs).map fun (content, rest) => (b :: content, rest)

/-- Cuts bytes like `cut`, or after the last one. -/
def cutOrAll {σ : Type} (step : σ → UInt8 → Option σ) (s : σ) (bytes : List UInt8) :
    List UInt8 × List UInt8 :=
  (cut step s bytes).getD (bytes, [])

def atBracket (_ : Unit) (b : UInt8) : Option Unit :=
  if b = '>'.toUInt8 then none else some ()

/-- Ends at the first closing angle bracket outside of quotes.  The state is
the quote that is open. -/
def atTagEnd (quote : Option UInt8) (b : UInt8) : Option (Option UInt8) :=
  match quote with
  | some q => some (if b = q then none else some q)
  | none =>
    if b = '>'.toUInt8 then none
    else if b = '"'.toUInt8 ∨ b = '\''.toUInt8 then some (some b)
    else some none

/-- How many times the byte `c` stands at the end, after one more byte. -/
def runLength (c : UInt8) (run : Nat) (b : UInt8) : Nat :=
  if b = c then run + 1 else 0

/-- Ends at the first closing angle bracket that follows two dashes and at
least four bytes.  The state counts the bytes and the dashes at their end. -/
def atCommentEnd (state : Nat × Nat) (b : UInt8) : Option (Nat × Nat) :=
  if b = '>'.toUInt8 ∧ 4 ≤ state.1 ∧ 2 ≤ state.2 then none
  else some (state.1 + 1, runLength '-'.toUInt8 state.2 b)

/-- Ends at the first closing angle bracket that follows two closing square
brackets.  The state counts the square brackets at the end. -/
def atCdataEnd (run : Nat) (b : UInt8) : Option Nat :=
  if b = '>'.toUInt8 ∧ 2 ≤ run then none else some (runLength ']'.toUInt8 run b)

/-- Ends at the first closing angle bracket with no partner before it.  The
state counts the opening brackets without a partner. -/
def atDoctypeEnd (depth : Nat) (b : UInt8) : Option Nat :=
  if b = '<'.toUInt8 then some (depth + 1)
  else if b = '>'.toUInt8 then
    match depth with
    | 0 => none
    | d + 1 => some d
  else some depth

def lowerByte (b : UInt8) : UInt8 :=
  if 'A'.toUInt8 ≤ b ∧ b ≤ 'Z'.toUInt8 then b + 32 else b

/-- Whether bytes start with an ASCII text in any case. -/
def startsWithAnyCase (s : String) (bytes : List UInt8) : Bool :=
  ((ascii s).map lowerByte).isPrefixOf (bytes.map lowerByte)

/-! ## One event -/

/-- What stands at the front of a document. -/
inductive Step where
  | ended
  | event (e : Event) (rest : List UInt8)
  | fault (cause : Fault)

def commentStep (bytes : List UInt8) : Step :=
  match cut atCommentEnd (0, 0) bytes with
  | none => .fault (.unexpectedEnd .comment)
  | some (content, rest) =>
    if (ascii "--").isPrefixOf content then
      .event (.comment ((content.drop 2).take (content.length - 4))) rest
    else .fault (.unexpectedEnd .comment)

def cdataStep (bytes : List UInt8) : Step :=
  match cut atCdataEnd 0 bytes with
  | none => .fault (.unexpectedEnd .cdata)
  | some (content, rest) =>
    if startsWithAnyCase "[CDATA[" content then
      .event (.cdata ((content.drop 7).take (content.length - 9))) rest
    else .fault (.unexpectedEnd .cdata)

def doctypeStep (bytes : List UInt8) : Step :=
  match cut atDoctypeEnd 0 bytes with
  | none => .fault (.unexpectedEnd .doctype)
  | some (content, rest) =>
    if startsWithAnyCase "DOCTYPE" content then
      let body := (content.drop 7).dropWhile isSpace
      if body.isEmpty then .fault .emptyDoctype else .event (.doctype body) rest
    else .fault (.unexpectedEnd .doctype)

def bangStep : List UInt8 → Step
  | [] => .fault (.unexpectedEnd .bang)
  | b :: bytes =>
    if b = '['.toUInt8 then cdataStep (b :: bytes)
    else if b = '-'.toUInt8 then commentStep (b :: bytes)
    else if b = 'D'.toUInt8 ∨ b = 'd'.toUInt8 then doctypeStep (b :: bytes)
    else .fault (.unexpectedBang b)

/-- Whether the content of a declaration or processing instruction, without its
question marks, is that of an XML declaration. -/
def isDeclaration (content : List UInt8) : Bool :=
  (ascii "xml").isPrefixOf content && ((content.drop 3).head?.any isSpace)

/-- A declaration or processing instruction, from after its first question
mark. -/
def questionStep (bytes : List UInt8) : Step :=
  let (content, rest) := cutOrAll atBracket () bytes
  let body := content.dropLast
  if content.getLast? = some '?'.toUInt8 ∧ 2 ≤ content.length then
    if isDeclaration body then .event (.declaration body) rest
    else .event (.instruction body) rest
  else .fault (.unexpectedEnd .declaration)

/-- A name without the space after it, or as it is where it is all space. -/
def trimName (name : List UInt8) : List UInt8 :=
  if name.all isSpace then name else (name.reverse.dropWhile isSpace).reverse

/-- The text of a name in a message, which is empty where it is not UTF-8. -/
def nameText (name : List UInt8) : String :=
  match Text.Utf8.decode name with
  | .ok s => s
  | .error _ => ""

/-- A closing tag, from after its slash.  `names` are those of the open
elements, innermost first. -/
def closingStep (names : List (List UInt8)) (bytes : List UInt8) : Step :=
  let (content, rest) := cutOrAll atBracket () bytes
  match names with
  | [] => .fault (.mismatchedEnd "" (nameText content))
  | name :: _ =>
    let found := trimName content
    if found = name then .event (.endTag name) rest
    else .fault (.mismatchedEnd (nameText name) (nameText found))

def openingStep (bytes : List UInt8) : Step :=
  let (content, rest) := cutOrAll atTagEnd none bytes
  if content.getLast? = some '/'.toUInt8 then
    .event (.emptyTag (Tag.ofContent content.dropLast)) rest
  else .event (.startTag (Tag.ofContent content)) rest

/-- Markup, from after its opening bracket.  A bracket at the end of the input
is nothing. -/
def markupStep (names : List (List UInt8)) : List UInt8 → Step
  | [] => .ended
  | b :: bytes =>
    if b = '!'.toUInt8 then bangStep bytes
    else if b = '/'.toUInt8 then closingStep names bytes
    else if b = '?'.toUInt8 then questionStep bytes
    else openingStep (b :: bytes)

def nextEvent (names : List (List UInt8)) : List UInt8 → Step
  | [] => .ended
  | b :: bytes =>
    if b = '<'.toUInt8 then markupStep names bytes
    else
      .event (.text (b :: bytes.takeWhile (· != '<'.toUInt8)))
        (bytes.dropWhile (· != '<'.toUInt8))

/-! ## Every event takes bytes -/

theorem cut_rest_lt {σ : Type} {step : σ → UInt8 → Option σ}
    {bytes content rest : List UInt8} {s : σ}
    (h : cut step s bytes = some (content, rest)) : rest.length < bytes.length := by
  induction bytes generalizing s content with
  | nil => simp [cut] at h
  | cons b bs ih =>
    unfold cut at h
    split at h
    · injection h with h
      injection h with _ hrest
      rw [← hrest, List.length_cons]
      omega
    · rename_i s' _
      cases hcut : cut step s' bs with
      | none => simp [hcut] at h
      | some p =>
        rw [hcut] at h
        injection h with h
        injection h with _ hrest
        have hlt := ih (show cut step s' bs = some (p.1, rest) by rw [hcut, ← hrest])
        rw [List.length_cons]
        omega

theorem cutOrAll_rest_le {σ : Type} (step : σ → UInt8 → Option σ) (s : σ)
    (bytes : List UInt8) : (cutOrAll step s bytes).2.length ≤ bytes.length := by
  unfold cutOrAll
  cases hcut : cut step s bytes with
  | none => simp
  | some p => exact Nat.le_of_lt (cut_rest_lt hcut)

theorem bangStep_rest_lt {bytes rest : List UInt8} {e : Event}
    (h : bangStep bytes = .event e rest) : rest.length < bytes.length := by
  unfold bangStep cdataStep commentStep doctypeStep at h
  dsimp only at h
  repeat' split at h
  all_goals first
    | (cases h; done)
    | (injection h with _ hrest
       subst hrest
       exact cut_rest_lt ‹_›)

theorem markupStep_rest_le {names : List (List UInt8)} {bytes rest : List UInt8} {e : Event}
    (h : markupStep names bytes = .event e rest) : rest.length ≤ bytes.length := by
  unfold markupStep at h
  split at h
  · cases h
  · rename_i b tail
    rw [List.length_cons]
    split at h
    · have := bangStep_rest_lt h
      omega
    · split at h
      · unfold closingStep at h
        have hle := cutOrAll_rest_le atBracket () tail
        dsimp only at h
        repeat' split at h
        all_goals first
          | (cases h; done)
          | (injection h with _ hrest; subst hrest; omega)
      · split at h
        · unfold questionStep at h
          have hle := cutOrAll_rest_le atBracket () tail
          dsimp only at h
          repeat' split at h
          all_goals first
            | (cases h; done)
            | (injection h with _ hrest; subst hrest; omega)
        · unfold openingStep at h
          have hle := cutOrAll_rest_le atTagEnd none (b :: tail)
          rw [List.length_cons] at hle
          dsimp only at h
          split at h <;> (injection h with _ hrest; subst hrest; exact hle)

theorem nextEvent_rest_lt {names : List (List UInt8)} {bytes rest : List UInt8} {e : Event}
    (h : nextEvent names bytes = .event e rest) : rest.length < bytes.length := by
  unfold nextEvent at h
  split at h
  · cases h
  · rename_i b tail
    rw [List.length_cons]
    split at h
    · have := markupStep_rest_le h
      omega
    · injection h with _ hrest
      have hle := length_dropWhile_le (· != '<'.toUInt8) tail
      rw [← hrest]
      omega

/-! ## All events -/

/-- The names of the open elements after an event, innermost first. -/
def namesAfter (names : List (List UInt8)) : Event → List (List UInt8)
  | .startTag tag => tag.name :: names
  | .endTag _ => names.tail
  | _ => names

/-- The events of the rest of a document, which starts at `position`. -/
def transcribe (position : Nat) (names : List (List UInt8)) (bytes : List UInt8) :
    Transcript :=
  match _h : nextEvent names bytes with
  | .ended => ⟨[], none⟩
  | .fault fault => ⟨[], some ⟨position, fault⟩⟩
  | .event event rest =>
    let after := transcribe (position + (bytes.length - rest.length))
      (namesAfter names event) rest
    ⟨⟨position, event⟩ :: after.events, after.fault⟩
termination_by bytes.length
decreasing_by exact nextEvent_rest_lt _h

/-- The three bytes that may stand in front of a document. -/
def byteOrderMark : List UInt8 := [0xEF, 0xBB, 0xBF]

/-- The document without a byte order mark, which no position counts. -/
def dropByteOrderMark (bytes : List UInt8) : List UInt8 :=
  if byteOrderMark.isPrefixOf bytes then bytes.drop 3 else bytes

def Transcript.ofBytes (bytes : List UInt8) : Transcript :=
  transcribe 0 [] (dropByteOrderMark bytes)

end ElementGrammar.Xml
