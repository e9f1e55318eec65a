/-
  GraphScript.Json.Basic — JSON values, how they compare and what counts as nothing.

  Whole numbers have any size, other numbers are binary64, and an object keeps its fields in order.

  `equals` compares numbers by value whatever their form (`1`, `1.0` and `true` are equal), lists by
  position and objects by key. A NaN equals nothing when it is compared itself; as a member of a
  list or an object it is equal to another one (`alike`).
-/
import GraphScript.Number.Binary64

namespace GraphScript

inductive Json where
  | null
  | bool (b : Bool)
  | int (n : Int)
  | float (x : Binary64)
  | str (s : String)
  | arr (members : List Json)
  | obj (fields : List (String × Json))
  deriving Inhabited

namespace Json

/-! ## Fields -/

abbrev Fields := List (String × Json)

/-- The value of a key, `null` where the key is missing. -/
def Fields.get (fields : Fields) (key : String) : Json := (fields.lookup key).getD .null

/-- Sets a key: in its old place, or else at the end. -/
def Fields.put : Fields → String → Json → Fields
  | [], key, value => [(key, value)]
  | (k, v) :: rest, key, value => if k = key then (k, value) :: rest else (k, v) :: Fields.put rest key value

def isNull : Json → Bool
  | .null => true
  | _ => false

/-! ## Truth -/

/-- Null, false, zero, and the empty text, list and object are not truthy; all else is. -/
def truthy : Json → Bool
  | .null => false
  | .bool b => b
  | .int n => n != 0
  | .float x => !x.isZero
  | .str s => s != ""
  | .arr members => !members.isEmpty
  | .obj fields => !fields.isEmpty

/-- Nothing in place of a value that is not truthy. -/
def orNull (j : Json) : Json := if j.truthy then j else .null

/-! ## Equality -/

/-- The value of a number: an integer where it is one. -/
inductive Amount where
  | whole (n : Int)
  | other (x : Binary64)
  deriving DecidableEq

def amount? : Json → Option Amount
  | .bool b => some (.whole (if b then 1 else 0))
  | .int n => some (.whole n)
  | .float x => some (match x.toInt? with | some n => .whole n | none => .other x)
  | _ => none

mutual

def alike : Json → Json → Bool
  | .null, .null => true
  | .str s, .str t => s == t
  | .arr xs, .arr ys => alikeMembers xs ys
  | .obj fs, .obj gs => fs.length == gs.length && alikeFields fs gs
  | a, b => match amount? a, amount? b with
    | some m, some n => m == n
    | _, _ => false

def alikeMembers : List Json → List Json → Bool
  | [], [] => true
  | x :: xs, y :: ys => alike x y && alikeMembers xs ys
  | _, _ => false

/-- Each field has an equal one of the same key in `gs`. -/
def alikeFields : List (String × Json) → List (String × Json) → Bool
  | [], _ => true
  | (k, x) :: rest, gs => (match gs.lookup k with | some y => alike x y | none => false) && alikeFields rest gs

end

def isNaN : Json → Bool
  | .float .nan => true
  | _ => false

def equals (a b : Json) : Bool := !a.isNaN && alike a b

end Json

end GraphScript
