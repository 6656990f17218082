import TinyGen.Fault

/-!
# Files

The files and directories that paths of a process lead to. A path names an entry by its components,
from the working directory or, after a leading slash, from the root; empty components and `.` stay
where they are, and `..` goes up. Nothing is known of what lies outside the working directory but
the directories above it and the root.

A path that ends in a slash asks for a directory, so no file can be created by it.
-/

namespace TinyGen

/-- A file with its content, or a directory. -/
inductive FileEntry where
  | file (content : ByteArray)
  | directory

/-- Entries by their components. Components are counted from the working directory; further up
they begin with `..`, once for each step, and from the root they begin with `/`. The working
directory itself, those above it and the root are always there. -/
structure FileSystem where
  entries : List (List String × FileEntry)

namespace FileSystem

/-- What a path leads to. -/
inductive Place where
  | directory
  | file (components : List String) (content : ByteArray)
  /-- Nothing, in a directory that is there. -/
  | vacant (components : List String)

/-- The working directory without entries. -/
def empty : FileSystem := ⟨[]⟩

/-- What a path is followed for. -/
inductive Purpose where
  | read
  /-- A file is to be written, and created if it is not there. -/
  | write
  deriving DecidableEq, Repr

/-- Most bytes that a component may have. -/
def maxNameSize : Nat := 255

/-- Most bytes that a path may have. -/
def maxPathSize : Nat := 4095

/-- The directory above a directory. The root is above itself. -/
def above (dir : List String) : List String :=
  match dir.getLast? with
  | none => [".."]
  | some name =>
    if name = ".." then dir ++ [".."]
    else if name = "/" then dir
    else dir.dropLast

/-- Follows components from a directory. Whether the last name may have a slash after it is decided
before the name is looked up. -/
def follow (fs : FileSystem) (purpose : Purpose) :
    (dir : List String) → List String → Except AccessFault Place
  | _, [] => .ok .directory
  | dir, name :: rest =>
    if name = "" ∨ name = "." then fs.follow purpose dir rest
    else if name = ".." then fs.follow purpose (above dir) rest
    else if purpose = .write ∧ rest ≠ [] ∧ rest.all (· = "") then .error .isDirectory
    else if maxNameSize < name.utf8ByteSize then .error .nameTooLong
    else
      let here := dir ++ [name]
      match fs.entries.lookup here, rest with
      | some .directory, rest => fs.follow purpose here rest
      | some (.file content), [] => .ok (.file here content)
      | some (.file _), _ => .error .notDirectory
      | none, [] => .ok (.vacant here)
      | none, _ => .error .notFound

/-- The names of a path, between its slashes. -/
def names (path : String) : List String :=
  (path.toList.splitOn '/').map String.ofList

/-- What a path leads to. -/
def find (fs : FileSystem) (purpose : Purpose) (path : String) : Except AccessFault Place :=
  if path.toList.contains '\x00' then .error .nulInPath
  else if maxPathSize < path.utf8ByteSize then .error .nameTooLong
  else
    match names path with
    | [""] => .error .notFound
    | "" :: components => fs.follow purpose ["/"] components
    | components => fs.follow purpose [] components

/-- Sets an entry. -/
def set (fs : FileSystem) (components : List String) (entry : FileEntry) : FileSystem :=
  ⟨(components, entry) :: fs.entries.filter (·.1 ≠ components)⟩

/-- Content of a file. -/
def read (fs : FileSystem) (path : String) : Except AccessFault ByteArray :=
  match fs.find .read path with
  | .error fault => .error fault
  | .ok .directory => .error .isDirectory
  | .ok (.file _ content) => .ok content
  | .ok (.vacant _) => .error .notFound

/-- Gives a file new content. A file that is not there is created. -/
def write (fs : FileSystem) (path : String) (content : ByteArray) :
    Except AccessFault FileSystem :=
  match fs.find .write path with
  | .error fault => .error fault
  | .ok .directory => .error .isDirectory
  | .ok (.file components _) => .ok (fs.set components (.file content))
  | .ok (.vacant components) => .ok (fs.set components (.file content))

end FileSystem

/-- The text of bytes in UTF-8. -/
def textOf (bytes : ByteArray) : Except AccessFault String :=
  match String.fromUTF8? bytes with
  | none => .error .notUtf8
  | some text => .ok text

end TinyGen
