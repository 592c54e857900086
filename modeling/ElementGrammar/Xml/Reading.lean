import ElementGrammar.Text.Blank
import ElementGrammar.Tree.Error
import ElementGrammar.Xml.Entity
import ElementGrammar.Xml.Event

/-!
# Reading a tree from a document

A reading takes the events of a document one by one.  It holds the elements
that are open (`Frame`), innermost first, and the root once that is closed.

* Names lose their prefix, attributes keep it; no name may be given twice.
* Text is collected until its element closes.  Blank text beside child elements
  is dropped, other text beside them is an error of `Element.new?`.
* Comments, declarations and document types say nothing; processing
  instructions say nothing outside of all elements.
* The first error ends the reading.

`Reading.ofEvents` reads the events of a well-nested document, and `readBytes`
reads a document from its bytes.
-/

namespace ElementGrammar.Xml

/-! ## Attributes -/

/-- An attribute from its bytes: the name is UTF-8, and the value is text. -/
def decodeAttribute (position : Nat) :
    Except AttributeFault RawAttribute → Except TreeError Attribute
  | .error fault => .error (.xml (.badAttribute fault) position)
  | .ok raw =>
    match Text.Utf8.decode raw.name with
    | .error malformed => .error (.invalidName malformed raw.name)
    | .ok name =>
      match readText raw.value with
      | .error fault => .error (.xml fault position)
      | .ok value => .ok ⟨name, value⟩

/-- Adds attributes of an element to those that it has, up to the first that is
in error or has the name of an earlier one. -/
def addAttributes (element : String) :
    Attributes → List (Except TreeError Attribute) → Except TreeError Attributes
  | attrs, [] => .ok attrs
  | _, .error e :: _ => .error e
  | attrs, .ok a :: rest =>
    match attrs.named? a.name with
    | some first => .error (.duplicateAttribute element a.name first.value a.value)
    | none => addAttributes element (attrs.push a) rest

/-! ## Open elements -/

/-- An element that is open, with what has been read of it. -/
structure Frame where
  name : String
  attrs : Attributes
  children : List Element
  text : Option String

namespace Frame

/-- Opens the element of a tag that starts at a position. -/
def ofTag (position : Nat) (tag : Tag) : Except TreeError Frame :=
  let bytes := localPart tag.name
  match Text.Utf8.decode bytes with
  | .error malformed => .error (.invalidName malformed bytes)
  | .ok name =>
    match addAttributes name [] (tag.rawAttributes.map (decodeAttribute position)) with
    | .error e => .error e
    | .ok attrs => .ok ⟨name, attrs, [], none⟩

def addText (frame : Frame) (text : String) : Frame :=
  { frame with text := some (frame.text.getD "" ++ text) }

def addChild (frame : Frame) (child : Element) : Frame :=
  { frame with children := frame.children ++ [child] }

/-- The text that an element closes with. -/
def closingText (frame : Frame) : Option String :=
  if frame.children.isEmpty then frame.text
  else frame.text.filter (!Text.isBlankText ·)

def close (frame : Frame) : Except TreeError Element :=
  Element.new? frame.name frame.attrs frame.children frame.closingText

end Frame

/-! ## Readings -/

/-- What has been read of a document. -/
structure Reading where
  /-- The elements that are open, innermost first. -/
  openFrames : List Frame
  /-- The root, once it is closed. -/
  root : Option Element

namespace Reading

def initial : Reading := ⟨[], none⟩

/-- Adds a closed element to the innermost open one, or makes it the root. -/
def complete (r : Reading) (e : Element) : Except TreeError Reading :=
  match r.openFrames with
  | frame :: outer => .ok { r with openFrames := frame.addChild e :: outer }
  | [] =>
    match r.root with
    | some first => .error (.multipleRoots first.name e.name)
    | none => .ok { r with root := some e }

def openTag (r : Reading) (position : Nat) (tag : Tag) : Except TreeError Reading :=
  match Frame.ofTag position tag with
  | .error e => .error e
  | .ok frame => .ok { r with openFrames := frame :: r.openFrames }

/-- Closes the innermost open element.  The name is that of the closing tag. -/
def closeTag (r : Reading) (name : List UInt8) : Except TreeError Reading :=
  match r.openFrames with
  | [] => .error (.unexpectedClose (Text.Utf8.decodeLossy name))
  | frame :: outer =>
    match frame.close with
    | .error e => .error e
    | .ok element => complete { r with openFrames := outer } element

def emptyTag (r : Reading) (position : Nat) (tag : Tag) : Except TreeError Reading :=
  match Frame.ofTag position tag with
  | .error e => .error e
  | .ok frame =>
    match frame.close with
    | .error e => .error e
    | .ok element => complete r element

def text (r : Reading) (position : Nat) (bytes : List UInt8) : Except TreeError Reading :=
  match readText bytes with
  | .error fault => .error (.xml fault position)
  | .ok text =>
    match r.openFrames with
    | frame :: outer => .ok { r with openFrames := frame.addText text :: outer }
    | [] =>
      if Text.isBlankText text then .ok r
      else .error (.textOutsideRoot (Text.trim text))

/-- Refuses a section of character data. -/
def cdata (r : Reading) (bytes : List UInt8) : Except TreeError Reading :=
  match r.openFrames with
  | frame :: _ => .error (.unsupportedNode frame.name .cdata)
  | [] => .error (.textOutsideRoot (Text.Utf8.decodeLossy bytes))

/-- Refuses a processing instruction inside an element. -/
def instruction (r : Reading) : Except TreeError Reading :=
  match r.openFrames with
  | frame :: _ => .error (.unsupportedNode frame.name .instruction)
  | [] => .ok r

def step (r : Reading) (e : Located Event) : Except TreeError Reading :=
  match e.item with
  | .startTag tag => r.openTag e.position tag
  | .emptyTag tag => r.emptyTag e.position tag
  | .endTag name => r.closeTag name
  | .text bytes => r.text e.position bytes
  | .cdata bytes => r.cdata bytes
  | .instruction _ => r.instruction
  | .comment _ | .declaration _ | .doctype _ => .ok r

def steps : Reading → List (Located Event) → Except TreeError Reading
  | r, [] => .ok r
  | r, e :: es =>
    match r.step e with
    | .error error => .error error
    | .ok r' => steps r' es

/-- The root, where nothing is left open. -/
def finish (r : Reading) : Except TreeError Element :=
  match r.openFrames, r.root with
  | frame :: _, _ => .error (.unclosedElement frame.name)
  | [], some root => .ok root
  | [], none => .error .noRoot

def ofEvents (events : List (Located Event)) : Except TreeError Element :=
  match initial.steps events with
  | .error e => .error e
  | .ok r => r.finish

end Reading

/-- Reads a transcript.  Its fault counts only where its events have none. -/
def Transcript.read (t : Transcript) : Except TreeError Element :=
  match t.fault with
  | none => Reading.ofEvents t.events
  | some fault =>
    match Reading.initial.steps t.events with
    | .error e => .error e
    | .ok _ => .error (.xml fault.item fault.position)

def readBytes (bytes : List UInt8) : Except TreeError Element :=
  (Transcript.ofBytes bytes).read

def readString (s : String) : Except TreeError Element :=
  readBytes (Text.Utf8.encode s)

/-- Reads a document from the content of a file.  A directory can be opened, so its
error comes from the first byte that is read. -/
def readContent : Except FileError (List UInt8) → Except TreeError Element
  | .ok bytes => readBytes bytes
  | .error .isDirectory => .error (.xml (.unreadable .isDirectory) 0)
  | .error e => .error (.file e)

end ElementGrammar.Xml
