/-
  GraphScript.Disk.PathText — the texts that name files.

  A slash separates the parts of a path. Empty parts and parts that are a dot say nothing, except
  that a path with them at its end names a folder. The suffix of a name starts at its last dot,
  where something stands before that dot and after it.
-/
import GraphScript.Text.Quoted

namespace GraphScript

namespace PathText

def parts (s : String) : List String := (s.toList.splitOn '/').map String.ofList

def saysNothing (part : String) : Bool := part = "" || part = "."

/-- The parts of a path that say something. -/
def names (s : String) : List String := (parts s).filter (!saysNothing ·)

/-- The slashes that a path starts with: one for a path from the root, and two where there are exactly two. -/
def root (s : String) : String :=
  match (s.toList.takeWhile (· = '/')).length with
  | 0 => ""
  | 2 => "//"
  | _ => "/"

def ofNames (root : String) (names : List String) : String :=
  if root = "" ∧ names = [] then "." else root ++ Text.joined "/" names

/-- The same path without the parts that say nothing. -/
def tidy (s : String) : String := ofNames (root s) (names s)

/-! ## Suffixes -/

/-- A name, cut into what stands before its suffix and the suffix. -/
def cutSuffix (name : List Char) : List Char × List Char :=
  let last := (name.reverse.takeWhile (· ≠ '.')).reverse
  let before := name.length - last.length
  if last = [] ∨ before < 2 then (name, []) else (name.take (before - 1), '.' :: last)

def fileName (s : String) : String := (names s).getLast?.getD ""

def suffix (s : String) : String := String.ofList (cutSuffix (fileName s).toList).2

/-- A suffix that can stand at the end of a name: none, or a dot and something without a slash. -/
def isSuffix (suffix : String) : Bool :=
  !suffix.toList.contains '/' && (suffix.isEmpty || suffix.toList.head? == some '.' && suffix != ".")

/-- The path with another suffix in place of its own. -/
def withSuffix? (s suffix : String) : Option String :=
  if isSuffix suffix then
    let stem := String.ofList (cutSuffix (fileName s).toList).1
    some (ofNames (root s) ((names s).dropLast ++ [stem ++ suffix]))
  else none

end PathText

end GraphScript
