-- SUMMARY: The files below a working directory, and reading one by its path.
import ScriptScan.Text.Pieces

/-! # File trees

A path is followed name by name from the working directory. Every name but the last has to be a directory,
and so has the last if a slash or a dot comes after it. Names and whole paths have a greatest length. Nothing is
known of what lies above the working directory but that it is there, and of the rest of the system no more than
its usual directories and two devices. -/

namespace ScriptScan.Command

/-- Why a file could not be read. -/
inductive ReadFault where
  | notFound
  | isDirectory
  | notDirectory
  | nameTooLong
  | other (description : String)
  deriving DecidableEq

def ReadFault.message : ReadFault → String
  | .notFound => "No such file or directory (os error 2)"
  | .isDirectory => "Is a directory (os error 21)"
  | .notDirectory => "Not a directory (os error 20)"
  | .nameTooLong => "File name too long (os error 36)"
  | .other description => description

inductive Entry where
  | file (content : List UInt8)
  | directory
  deriving DecidableEq

/-- Entries by their paths, a path being the list of its names. Of two entries with one path the later
counts. -/
abbrev FileTree := List (List String × Entry)

/-- A place in or above the tree. An absolute path begins with the name of the root, a slash. -/
inductive Place where
  | inside (path : List String)
  | above
  deriving DecidableEq

/-- The names of a path that is divided by slashes. -/
def pathNames (path : String) : List String := (pieces '/' path.toList).map String.ofList

/-- The name of the root. -/
def root : String := "/"

/-- How many bytes a name may have. -/
def longestName : Nat := 255

/-- How many bytes a path may have. -/
def longestPath : Nat := 4095

namespace FileTree

/-- The entry of a path. The directories that lead to an entry exist. -/
def entry? (tree : FileTree) (path : List String) : Option Entry :=
  match tree.reverse.find? (·.1 == path) with
  | some (_, entry) => some entry
  | none => if path.isEmpty || tree.any (fun e => path.isPrefixOf e.1) then some .directory else none

/-- The place of the directory above. The root is above itself. -/
def parent (path : List String) : Place :=
  if path.isEmpty then .above else if path = [root] then .inside path else .inside path.dropLast

/-- Follows names from a place. -/
def follow (tree : FileTree) : Place → List String → Except ReadFault Place
  | place, [] => .ok place
  | .above, name :: names =>
    if name = "" ∨ name = "." ∨ name = ".." then follow tree .above names
    else if longestName < name.utf8ByteSize then .error .nameTooLong
    else .error .notFound
  | .inside path, name :: names =>
    match tree.entry? path with
    | none => .error .notFound
    | some (.file _) => .error .notDirectory
    | some .directory =>
      if name = "" ∨ name = "." then follow tree (.inside path) names
      else if name = ".." then follow tree (parent path) names
      else if longestName < name.utf8ByteSize then .error .nameTooLong
      else follow tree (.inside (path ++ [name])) names

/-- Reads the file at a path. -/
def read (tree : FileTree) (path : String) : Except ReadFault (List UInt8) := do
  if longestPath < path.utf8ByteSize then
    throw .nameTooLong
  let start := if path.toList.head? = some '/' then [root] else []
  match ← tree.follow (.inside start) (pathNames path) with
  | .above => .error .isDirectory
  | .inside path =>
    match tree.entry? path with
    | none => .error .notFound
    | some .directory => .error .isDirectory
    | some (.file content) => .ok content

/-- A tree together with the rest of the system, where one device is empty and one holds the input. -/
def onSystem (tree : FileTree) (input : List UInt8) : FileTree :=
  let directories := ["bin", "dev", "etc", "home", "lib", "opt", "proc", "root", "run", "sbin", "sys", "tmp",
    "usr", "var"]
  directories.map (fun name => ([root, name], Entry.directory)) ++
    [([root, "dev", "null"], .file []), ([root, "dev", "stdin"], .file input)] ++ tree

/-- Adds a name to a path, as it stands in a longer path. -/
def extend (path : List String) (name : String) : List String :=
  if name = "" ∨ name = "." then path else if name = ".." then path.dropLast else path ++ [name]

/-- A tree of entries by their written paths. -/
def ofPaths (entries : List (String × Entry)) : FileTree :=
  entries.map fun (path, entry) => ((pathNames path).foldl extend [], entry)

end FileTree

end ScriptScan.Command
