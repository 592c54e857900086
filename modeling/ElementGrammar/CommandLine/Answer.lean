import ElementGrammar.CommandLine.Options
import ElementGrammar.Tree.Dump
import ElementGrammar.Tree.Folder
import ElementGrammar.Xml.Reading
import ElementGrammar.Xsd.Entry

/-!
# Answers of the command line

The command reads a document and writes either its tree or the schema that it
declares.  An `Answer` is an exit code with what goes to standard output and to
standard error.

`Plan.ofArguments` says what has to be read, `Answer.ofContent` answers once it is
read, and `Answer.ofArguments` is both over a given folder.
-/

namespace ElementGrammar

structure Answer where
  code : Nat
  stdout : String
  stderr : String
  deriving DecidableEq, Repr

def usage : String :=
  "Usage: elemparse [OPTIONS] INPUT\n\nOptions:\n"
    ++ "        --emit tree|xsd set output type (default xsd)\n"
    ++ "    -h, --help          print this help menu\n\n"

/-- What the arguments leave to do. -/
inductive Plan where
  /-- Nothing: this is the answer. -/
  | answer (a : Answer)
  /-- To read a file. -/
  | read (input : String) (emit : Emit)

/-- What the arguments leave to do. -/
def Plan.ofArguments (arguments : List String) : Plan :=
  match Request.ofArguments arguments with
  | .error e => .answer ⟨64, usage, e.message ++ "\n"⟩
  | .ok .usage => .answer ⟨0, usage, ""⟩
  | .ok (.process input emit) => .read input emit

namespace Answer

def ofTreeError (e : TreeError) : Answer :=
  ⟨1, "", "Error: Tree(" ++ e.structured.inline ++ ")\n"⟩

def ofParseError (input : String) (e : ParseError) : Answer :=
  ⟨1, e.report ++ s!"\nfatal: failed to parse `{input}`\n", ""⟩

def ofTree (input : String) (e : Element) : Emit → Answer
  | .tree => ⟨0, e.dump ++ "\n", ""⟩
  | .schema =>
    match (Xsd.Schema.rule .declared).parse e with
    | .error error => ofParseError input error
    | .ok schema => ⟨0, schema.outline.spread ++ "\n", ""⟩

/-- The answer to the content of a file. -/
def ofContent (input : String) (emit : Emit) (content : Except FileError (List UInt8)) :
    Answer :=
  match Xml.readContent content with
  | .error e => ofTreeError e
  | .ok e => ofTree input e emit

/-- The answer to arguments in a folder. -/
def ofArguments (folder : Folder) (arguments : List String) : Answer :=
  match Plan.ofArguments arguments with
  | .answer a => a
  | .read input emit => ofContent input emit (folder.read? input)

end Answer

end ElementGrammar
