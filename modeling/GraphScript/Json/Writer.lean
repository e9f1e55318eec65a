/-
  GraphScript.Json.Writer — JSON text, written.

  The text is plain ASCII: what is not stands as `\uXXXX`, beyond the first plane as a pair of
  surrogates. Without an indent a value is one line; with one, each member of a list or an object
  that is not empty has a line of its own, behind the indent once for each level.
-/
import GraphScript.Json.Basic
import GraphScript.Number.Decimal
import GraphScript.Text.Quoted

namespace GraphScript.Json

/-! ## Strings -/

def escapedUnit (u : Nat) : List Char := '\\' :: 'u' :: Text.hex 4 u

def escapedChar (c : Char) : List Char :=
  if c = '"' then ['\\', '"']
  else if c = '\\' then ['\\', '\\']
  else if c = '\n' then ['\\', 'n']
  else if c = '\r' then ['\\', 'r']
  else if c = '\t' then ['\\', 't']
  else if c = '\x08' then ['\\', 'b']
  else if c = '\x0c' then ['\\', 'f']
  else if 0x20 ≤ c.toNat ∧ c.toNat < 0x7f then [c]
  else if c.toNat < 0x10000 then escapedUnit c.toNat
  else
    let above := c.toNat - 0x10000
    escapedUnit (0xd800 + above / 0x400) ++ escapedUnit (0xdc00 + above % 0x400)

def writtenString (s : String) : List Char := '"' :: s.toList.flatMap escapedChar ++ ['"']

/-! ## Values -/

/-- The break before a member, `depth` levels in. -/
def lineBreak (indent : Option String) (depth : Nat) : List Char :=
  match indent with
  | none => []
  | some unit => '\n' :: (List.replicate depth unit.toList).flatten

/-- Between two members. -/
def separator (indent : Option String) (depth : Nat) : List Char :=
  match indent with
  | none => [',', ' ']
  | some _ => ',' :: lineBreak indent depth

mutual

def written (indent : Option String) (depth : Nat) : Json → List Char
  | .null => ['n', 'u', 'l', 'l']
  | .bool b => if b then ['t', 'r', 'u', 'e'] else ['f', 'a', 'l', 's', 'e']
  | .int n => (toString n).toList
  | .float x => (Layout.json.text x).toList
  | .str s => writtenString s
  | .arr [] => ['[', ']']
  | .arr (x :: rest) =>
    '[' :: lineBreak indent (depth + 1) ++ written indent (depth + 1) x ++ writtenMembers indent (depth + 1) rest
      ++ lineBreak indent depth ++ [']']
  | .obj [] => ['\x7b', '\x7d']
  | .obj ((k, x) :: rest) =>
    '\x7b' :: lineBreak indent (depth + 1) ++ writtenString k ++ [':', ' '] ++ written indent (depth + 1) x
      ++ writtenFields indent (depth + 1) rest ++ lineBreak indent depth ++ ['\x7d']

/-- The members after the first, each behind a separator. -/
def writtenMembers (indent : Option String) (depth : Nat) : List Json → List Char
  | [] => []
  | x :: rest => separator indent depth ++ written indent depth x ++ writtenMembers indent depth rest

/-- The fields after the first, each behind a separator. -/
def writtenFields (indent : Option String) (depth : Nat) : List (String × Json) → List Char
  | [] => []
  | (k, x) :: rest =>
    separator indent depth ++ writtenString k ++ [':', ' '] ++ written indent depth x
      ++ writtenFields indent depth rest

end

def write (indent : Option String) (j : Json) : String := String.ofList (written indent 0 j)

/-- The indent of so many spaces. -/
def spaces (width : Nat) : String := String.ofList (List.replicate width ' ')

end GraphScript.Json
