/-
  GraphScript.Json.Display — a value as ids and messages spell it.

  A text at the top stands as it is; inside a message, a list or an object it is quoted. Quotes are
  single, unless the text has a single quote and no double one; what cannot be printed is escaped by
  its code point.
-/
import GraphScript.Json.Basic
import GraphScript.Number.Decimal
import GraphScript.Text.Printable
import GraphScript.Text.Quoted

namespace GraphScript

namespace Text

/-- A character inside quotes of the given kind. -/
def shown (mark : Char) (c : Char) : List Char :=
  if c = mark ∨ c = '\\' then ['\\', c]
  else if c = '\n' then ['\\', 'n']
  else if c = '\r' then ['\\', 'r']
  else if c = '\t' then ['\\', 't']
  else if isPrintable c then [c]
  else if c.toNat < 0x100 then '\\' :: 'x' :: hex 2 c.toNat
  else if c.toNat < 0x10000 then '\\' :: 'u' :: hex 4 c.toNat
  else '\\' :: 'U' :: hex 8 c.toNat

def display (s : String) : String :=
  let mark := if s.toList.contains '\'' && !s.toList.contains '"' then '"' else '\''
  String.ofList (mark :: s.toList.flatMap (shown mark) ++ [mark])

end Text

namespace Json

mutual

def display : Json → String
  | .null => "None"
  | .bool b => if b then "True" else "False"
  | .int n => toString n
  | .float x => Layout.display.text x
  | .str s => Text.display s
  | .arr members => "[" ++ Text.joined ", " (displayMembers members) ++ "]"
  | .obj fields => "\x7b" ++ Text.joined ", " (displayFields fields) ++ "\x7d"

def displayMembers : List Json → List String
  | [] => []
  | x :: rest => display x :: displayMembers rest

def displayFields : List (String × Json) → List String
  | [] => []
  | (k, x) :: rest => (Text.display k ++ ": " ++ display x) :: displayFields rest

end

/-- The text of a value that stands by itself. -/
def text : Json → String
  | .str s => s
  | j => j.display

/-- What kind of value this is, by name. -/
def kindName : Json → String
  | .null => "NoneType"
  | .bool _ => "bool"
  | .int _ => "int"
  | .float _ => "float"
  | .str _ => "str"
  | .arr _ => "list"
  | .obj _ => "dict"

end Json

end GraphScript
