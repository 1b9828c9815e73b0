/-!
Folders: the files that a command may read.

A file has a path below the folder, with slashes between the names. `Folder.read` follows a path
name by name; it may go through folders that hold files, and up again. The system refuses names and
paths that have too many bytes: a path before it is followed, a name when it is looked up.
-/

namespace Reshape.Command

/-- Why the text of a file cannot be had. -/
inductive FileFault where
  | notFound
  | notFolder
  | isFolder
  | nameTooLong
  | nameHasNul
  | notText
  | other (description : String)
deriving DecidableEq

/-- The wording of a fault, with the number of the system's own error. -/
def FileFault.message : FileFault → String
  | .notFound => "No such file or directory (os error 2)"
  | .notFolder => "Not a directory (os error 20)"
  | .isFolder => "Is a directory (os error 21)"
  | .nameTooLong => "File name too long (os error 36)"
  | .nameHasNul => "file name contained an unexpected NUL byte"
  | .notText => "stream did not contain valid UTF-8"
  | .other description => description

/-- The text that bytes are in UTF-8. -/
def decodeText (bytes : ByteArray) : Except FileFault String :=
  match String.fromUTF8? bytes with
  | some text => .ok text
  | none => .error .notText

/-- Files with their paths. -/
abbrev Folder := List (String × ByteArray)

/-- The names in a path. -/
def pathNames (path : String) : List String :=
  (path.toList.splitOn '/').map String.ofList

/-- The names in a file's path below its folder. -/
def fileNames (path : String) : List String :=
  (pathNames path).filter fun name => name ≠ "" ∧ name ≠ "."

/-- The most bytes that a single name may have. -/
def longestName : Nat := 255

/-- The most bytes that a path may have. -/
def longestPath : Nat := 4095

/-- A place that a path has led to. -/
inductive Place where
  | file (contents : ByteArray)
  | inside (names : List String)
  | outside

namespace Folder

/-- The place that has the given names below a folder. -/
def place? (folder : Folder) (names : List String) : Except FileFault Place :=
  match folder.find? fun file => fileNames file.1 = names with
  | some (_, contents) => .ok (.file contents)
  | none =>
      if names = [] ∨ folder.any fun file => names.isPrefixOf (fileNames file.1) then
        .ok (.inside names)
      else .error .notFound

/-- Goes on from a place by one name. Nothing is known of what lies outside the folder. -/
def follow (folder : Folder) (place : Place) (name : String) : Except FileFault Place :=
  match place with
  | .file _ => .error .notFolder
  | .outside =>
      if name = "" ∨ name = "." ∨ name = ".." then .ok .outside
      else if longestName < name.utf8ByteSize then .error .nameTooLong
      else .error .notFound
  | .inside names =>
      if name = "" ∨ name = "." then .ok place
      else if name = ".." then
        if names = [] then .ok .outside else folder.place? names.dropLast
      else if longestName < name.utf8ByteSize then .error .nameTooLong
      else folder.place? (names ++ [name])

/-- Reads the contents of a file. -/
def read (folder : Folder) (path : String) : Except FileFault ByteArray := do
  if path.toList.contains '\x00' then throw .nameHasNul
  if longestPath < path.utf8ByteSize then throw .nameTooLong
  let start := if path.toList.head? = some '/' then Place.outside else .inside []
  match ← (pathNames path).foldlM folder.follow start with
  | .file contents => .ok contents
  | .inside _ | .outside => .error .isFolder

end Folder

end Reshape.Command
