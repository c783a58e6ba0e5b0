import DeviceTrial.Numeral
import DeviceTrial.Text.Parts

/-!
Files by their paths, and why a path leads to none.

A path is walked name by name from the working directory, and the first name that leads nowhere
decides what is wrong. Directories are walked through; a file can only be the end of a walk, and
where a separator or a point follows it, it is walked through in vain.
-/

namespace DeviceTrial

/-- Why no file is read. -/
inductive FileFault where
  | notFound
  | notDirectory
  | isDirectory
  | nameTooLong
  /-- The null character ends a path, so none holds it. -/
  | nullInPath
  | other (description : String)
  deriving DecidableEq, Repr

namespace FileFault

def numbered (description : String) (code : Nat) : String :=
  description ++ " (os error " ++ Numeral.decimal code ++ ")"

def message : FileFault → String
  | notFound => numbered "No such file or directory" 2
  | notDirectory => numbered "Not a directory" 20
  | isDirectory => numbered "Is a directory" 21
  | nameTooLong => numbered "File name too long" 36
  | nullInPath => "file name contained an unexpected NUL byte"
  | other description => description

end FileFault

inductive FileContent where
  | unreadable (fault : FileFault)
  /-- The bytes are no text. -/
  | binary
  | text (content : String)

/-- Text files by the names on the way to them from the working directory. -/
structure FileTree where
  files : List (List String × String)

inductive Place where
  /-- A directory at or below the working directory, by the names on the way to it. -/
  | inside (names : List String)
  /-- A directory of which nothing is known. -/
  | outside
  | file (content : String)

namespace FileTree

def empty : FileTree := ⟨[]⟩

/-- The longest name, in bytes. -/
def maxName : Nat := 255

/-- The longest path, in bytes. -/
def maxPath : Nat := 4095

def names (path : String) : List String := (Text.parts '/' path.toList).map String.ofList

def ofPaths (files : List (String × String)) : FileTree :=
  ⟨files.map fun f => (names f.1, f.2)⟩

/-- A directory is there if a file lies below it. -/
def hasDirectory (t : FileTree) (names : List String) : Bool :=
  t.files.any fun f => names.isPrefixOf f.1

def find (t : FileTree) (names : List String) : Except FileFault Place :=
  match t.files.lookup names with
  | some content => .ok (.file content)
  | none => if t.hasDirectory names then .ok (.inside names) else .error .notFound

/-- One step of a walk. The empty name, which stands between two separators, and the point stay
where they are, two points lead one up. -/
def step (t : FileTree) (place : Place) (name : String) : Except FileFault Place :=
  match place with
  | .file _ => .error .notDirectory
  | .inside names =>
    if name = "" ∨ name = "." then .ok place
    else if name = ".." then .ok (if names.isEmpty then .outside else .inside names.dropLast)
    else if maxName < name.utf8ByteSize then .error .nameTooLong
    else t.find (names ++ [name])
  | .outside =>
    if name = "" ∨ name = "." ∨ name = ".." then .ok place
    else if maxName < name.utf8ByteSize then .error .nameTooLong
    else .error .notFound

/-- The place to which a path leads. A separator at its start leads out of the working directory. -/
def walk (t : FileTree) (path : String) : Except FileFault Place :=
  if path.toList.contains '\x00' then .error .nullInPath
  else if path.isEmpty then .error .notFound
  else if maxPath < path.utf8ByteSize then .error .nameTooLong
  else match names path with
    | "" :: rest => rest.foldlM t.step .outside
    | rest => rest.foldlM t.step (.inside [])

def read (t : FileTree) (path : String) : FileContent :=
  match t.walk path with
  | .error fault => .unreadable fault
  | .ok (.file content) => .text content
  | .ok _ => .unreadable .isDirectory

end FileTree

end DeviceTrial
