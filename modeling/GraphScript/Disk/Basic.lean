/-
  GraphScript.Disk.Basic — files and folders, as a value.

  A path is its list of names from the root on; `[]` is the root. A folder is there when the working
  folder or a file lies in it, or when it is listed.

  A text is read with every line end as a line feed, and written as it is.
-/
import GraphScript.Disk.PathText

namespace GraphScript

abbrev Path := List String

structure Disk where
  /-- The working folder. -/
  here : Path
  files : List (Path × String)
  folders : List Path := []

inductive Node where
  | missing
  | folder
  | file (content : String)
  deriving DecidableEq, Repr

/-- Why a path cannot be opened. -/
inductive FileFault where
  | missing
  | notFolder
  | isFolder
  | exists
  | nullCharacter
  | nameTooLong
  deriving DecidableEq, Repr

/-- Every line end becomes a line feed. -/
def Text.lineFeeds : List Char → List Char
  | [] => []
  | '\r' :: '\n' :: rest => '\n' :: lineFeeds rest
  | '\r' :: rest => '\n' :: lineFeeds rest
  | c :: rest => c :: lineFeeds rest

def Text.read (s : String) : String := String.ofList (Text.lineFeeds s.toList)

namespace Disk

def isFolder (d : Disk) (p : Path) : Bool :=
  p.isPrefixOf d.here || d.folders.any p.isPrefixOf || d.files.any fun (q, _) => p != q && p.isPrefixOf q

def node (d : Disk) (p : Path) : Node :=
  match d.files.lookup p with
  | some content => .file content
  | none => if d.isFolder p then .folder else .missing

/-! ## Paths given as texts -/

/-- How many bytes a name may have. -/
def maxNameBytes : Nat := 255

/-- How many bytes a path may have. -/
def maxPathBytes : Nat := 4095

/-- Follows the parts of a path; what has parts after it must be a folder. -/
def follow (d : Disk) (p : Path) : List String → Except FileFault Path
  | [] => .ok p
  | part :: rest =>
    match d.node p with
    | .missing => .error .missing
    | .file _ => .error .notFolder
    | .folder =>
      if PathText.saysNothing part then d.follow p rest
      else if part = ".." then d.follow p.dropLast rest
      else if maxNameBytes < part.utf8ByteSize then .error .nameTooLong
      else d.follow (p ++ [part]) rest

/-- The path that a text names, from the working folder unless it starts at the root. -/
def resolve (d : Disk) (s : String) : Except FileFault Path :=
  if s.toList.contains '\x00' then .error .nullCharacter
  else if s = "" then .error .missing
  else if maxPathBytes < s.utf8ByteSize then .error .nameTooLong
  else d.follow (if s.toList.head? = some '/' then [] else d.here) (PathText.parts s)

def nodeNamed (d : Disk) (s : String) : Except FileFault Node := (d.resolve s).map d.node

/-! ## Reading and writing -/

def readPath (d : Disk) (p : Path) : Except FileFault String :=
  match d.node p with
  | .missing => .error .missing
  | .folder => .error .isFolder
  | .file content => .ok (Text.read content)

def read (d : Disk) (s : String) : Except FileFault String := (d.resolve (PathText.tidy s)).bind d.readPath

/-- Sets the content of a file: in its old place, or else at the end. -/
def put : List (Path × String) → Path → String → List (Path × String)
  | [], p, content => [(p, content)]
  | (q, old) :: rest, p, content => if q = p then (q, content) :: rest else (q, old) :: put rest p content

/-- Writes a file into a folder that is there. -/
def writePath (d : Disk) (p : Path) (content : String) : Except FileFault Disk :=
  if d.node p = .folder then .error .isFolder else .ok { d with files := put d.files p content }

def write (d : Disk) (s content : String) : Except FileFault Disk := do
  let p ← d.resolve (PathText.tidy s)
  d.writePath p content

/-- The files that are new or have another content than before. -/
def changesSince (d before : Disk) : List (Path × String) :=
  d.files.filter fun (p, content) => before.files.lookup p != some content

end Disk

end GraphScript
