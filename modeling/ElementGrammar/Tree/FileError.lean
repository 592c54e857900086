import ElementGrammar.Text.Structured

/-!
# Errors of files

Why the content of a file is not at hand: the path leads nowhere, goes on after a
regular file, or leads to a directory, which can be opened and not read.
-/

namespace ElementGrammar

open Text (Structured)

/-- Why there is no content. -/
inductive FileError where
  | notFound
  /-- The path goes on after a regular file. -/
  | notDirectory
  | isDirectory
  deriving DecidableEq, Repr

namespace FileError

def text : FileError → String
  | .notFound => "No such file or directory"
  | .notDirectory => "Not a directory"
  | .isDirectory => "Is a directory"

def code : FileError → Nat
  | .notFound => 2
  | .notDirectory => 20
  | .isDirectory => 21

def message (e : FileError) : String :=
  e.text ++ s!" (os error {e.code})"

def name : FileError → String
  | .notFound => "NotFound"
  | .notDirectory => "NotADirectory"
  | .isDirectory => "IsADirectory"

def structured (e : FileError) : Structured :=
  .record "Os"
    [("code", .number e.code), ("kind", .atom e.name), ("message", .quoted e.text)]

end FileError

end ElementGrammar
