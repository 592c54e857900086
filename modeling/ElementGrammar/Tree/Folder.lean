import ElementGrammar.Tree.Error

/-!
# Folders

A folder holds regular files, each under a path of names; a directory is there as
far as a file is in it.  `Folder.read?` follows a path from the folder itself.
Every name but the last has to be that of a directory: where it is a file the path
goes on after a regular file, and where it is nothing the path leads nowhere.  So
does a path that leaves the folder.
-/

namespace ElementGrammar

abbrev Folder := List (List String × List UInt8)

/-- The parts of a path between slashes. -/
def pathParts (path : String) : List String :=
  path.splitOn "/"

namespace Folder

/-- A folder with files under written paths. -/
def ofFiles (files : List (String × List UInt8)) : Folder :=
  files.map fun (path, bytes) => (pathParts path, bytes)

def fileAt? (f : Folder) (place : List String) : Option (List UInt8) :=
  f.lookup place

def isDirectory (f : Folder) (place : List String) : Bool :=
  place.isEmpty || f.any fun (path, _) => place.isPrefixOf path && place != path

/-- Follows parts of a path from a place. -/
def follow (f : Folder) (place : List String) : List String → Except FileError (List String)
  | [] => .ok place
  | part :: parts =>
    if f.isDirectory place then
      if part = "" ∨ part = "." then follow f place parts
      else if part = ".." then
        match place with
        | [] => .error .notFound
        | _ :: _ => follow f place.dropLast parts
      else follow f (place ++ [part]) parts
    else if (f.fileAt? place).isSome then .error .notDirectory
    else .error .notFound

/-- The content of the file that a path leads to.  A path that does not start in
the folder leads nowhere. -/
def read? (f : Folder) (path : String) : Except FileError (List UInt8) :=
  if path.isEmpty || path.startsWith "/" then .error .notFound
  else
    match f.follow [] (pathParts path) with
    | .error e => .error e
    | .ok place =>
      match f.fileAt? place with
      | some bytes => .ok bytes
      | none => if f.isDirectory place then .error .isDirectory else .error .notFound

end Folder

end ElementGrammar
