/-
  GraphScript.State.Fields — how the fields of a graph state are read.

  Nothing in a state has a promised type. A field that is missing reads as null. A nested object
  that is not truthy reads as an empty one, any other value that is no object has no fields at all
  (`noMember`).
-/
import GraphScript.Program.Build
import GraphScript.Program.Script

namespace GraphScript.Json

/-- The fields of an object. -/
def fields : Json → Except Fault Fields
  | .obj fields => .ok fields
  | _ => .error .noMember

/-- The fields of a nested object. -/
def nested (j : Json) : Except Fault Fields := if j.truthy then j.fields else .ok []

/-- The members of a list, none of a value that is not truthy. -/
def membersIfAny (j : Json) : Except Fault (List Json) := if j.truthy then j.members else .ok []

/-- A field that must be there. -/
def need (j : Json) (key : String) : Except Fault Json :=
  match j with
  | .obj fields => match fields.lookup key with
    | some value => .ok value
    | none => .error (.missingKey key)
  | _ => .error .wrongType

/-- Whether a value is this text. -/
def is (s : String) : Json → Bool
  | .str t => t == s
  | _ => false

/-- An expression: a text as it is, a number as it is written. -/
def latex : Json → Except Fault Latex
  | .str s => .ok ⟨s⟩
  | j => j.numberScript.map Latex.mk

/-- The entry of a value in a table of modes; lists and objects cannot be looked up. -/
def lookupIn {α : Type} (table : List (String × α)) : Json → Except Fault (Option α)
  | .str s => .ok (table.lookup s)
  | .arr _ | .obj _ => .error .wrongType
  | _ => .ok none

namespace Fields

/-- Whether a key has a value other than null. -/
def has (fs : Fields) (key : String) : Bool := !(fs.get key).isNull

def truthy (fs : Fields) (key : String) : Bool := (fs.get key).truthy

def latex (fs : Fields) (key : String) : Except Fault (Option Latex) := (fs.get key).present Json.latex

def interval (fs : Fields) : Except Fault Interval := do
  return { min := ← fs.latex "min", max := ← fs.latex "max", step := ← fs.latex "step" }

end Fields

end GraphScript.Json

namespace GraphScript

/-- `w` when the condition holds. -/
def flagIf (condition : Bool) (w : FlagWord) : List Flag := if condition then [.word w] else []

def smallFlagIf (condition : Bool) (f : SmallFlag) : List SmallFlag := if condition then [f] else []

/-- An interval without bounds says nothing. -/
def Interval.bounds? (i : Interval) : Option Interval := if i = {} then none else some i

end GraphScript
