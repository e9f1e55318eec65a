/-
  GraphScript.Program.Build — trees written as JSON.

  An object with a `type` builds a record of that kind from its other fields, in their order; a
  `key` is passed over. A list builds a list, and anything else stands for itself. Words of an
  enumeration are looked up where a field calls for one. A record is refused when a field is not of
  its kind, when one that must be given is missing, and when it breaks an invariant of its kind.
-/
import GraphScript.Fault
import GraphScript.Program.Tree

namespace GraphScript

namespace Json

/-- What iteration over a value yields: the members of a list, the characters of a text, the keys of an object. -/
def members : Json → Except Fault (List Json)
  | .arr members => .ok members
  | .str s => .ok (s.toList.map fun c => .str c.toString)
  | .obj fields => .ok (fields.map fun (key, _) => .str key)
  | _ => .error .wrongType

end Json

namespace Tree

def truthy : Tree → Bool
  | .plain j => j.truthy
  | .list members => !members.isEmpty
  | .token _ | .record _ _ => true

def members : Tree → Except Fault (List Tree)
  | .plain j => j.members.map (·.map .plain)
  | .list members => .ok members
  | .token _ | .record _ _ => .error .wrongType

/-! ## Display -/

/-- Members in round brackets; a single one keeps a comma. -/
def displayTuple : List String → String
  | [s] => "(" ++ s ++ ",)"
  | ss => "(" ++ Text.joined ", " ss ++ ")"

def displayToken (t : Token) : String :=
  let enumeration := match t with
    | .smallFlag _ => "SmallFlag"
    | .arrowMode _ => "ArrowMode"
    | .visibility _ => "ShowOrHide"
  "<" ++ enumeration ++ "." ++ String.ofList (t.word.toList.map Char.toUpper) ++ ": " ++ Text.display t.word ++ ">"

mutual

def display : Tree → String
  | .plain j => j.display
  | .list members => displayTuple (displayAll members)
  | .token t => displayToken t
  | .record kind fields =>
    kind.name ++ "(" ++ Text.joined ", " (displayFields (kind.fields.map (·.name)) fields) ++ ")"

def displayAll : List Tree → List String
  | [] => []
  | t :: rest => display t :: displayAll rest

def displayFields : List String → List Tree → List String
  | name :: names, t :: rest => (name ++ "=" ++ display t) :: displayFields names rest
  | _, _ => []

end

/-! ## Enumerations -/

/-- The member of an enumeration that a value names. -/
def memberOf {α : Type} (enumeration : String) (all : List α) (word : α → String) (t : Tree) : Except Fault α :=
  let found := match t with
    | .plain (.str s) => all.find? (word · == s)
    | _ => none
  match found with
  | some a => .ok a
  | none => .error (.notMember t.display enumeration)

def smallFlag (t : Tree) : Except Fault Tree := (memberOf "SmallFlag" SmallFlag.all SmallFlag.word t).map (·.tree)

def arrowMode (t : Tree) : Except Fault Tree := (memberOf "ArrowMode" ArrowMode.all ArrowMode.word t).map (·.tree)

def visibility (t : Tree) : Except Fault Tree := (memberOf "ShowOrHide" Visibility.all Visibility.word t).map (·.tree)

/-- The value of a field, its words looked up. -/
def fieldValue (kind : Kind) (field : String) (t : Tree) : Except Fault Tree :=
  if field = "small_flags" then do return .list (← (← t.members).mapM smallFlag)
  else if t.isNull then .ok t
  else match kind, field with
    | .axisArrows, "x" | .axisArrows, "y" => arrowMode t
    | .axes, "x" | .axes, "y" | .axes, "polar" | .axisNumbers, "x" | .axisNumbers, "y" | .axisNumbers, "polar" =>
      visibility t
    | _, _ => .ok t

/-! ## Records -/

/-- A child of a folder is an item, and no folder. -/
def checkChild : Tree → Except Fault Unit
  | .record .item (.record .folder _ :: _) => .error (.invariant .nestedFolder)
  | .record .item _ => .ok ()
  | _ => .error .noMember

/-- The invariants of a kind. -/
def check (kind : Kind) (fields : List Tree) : Except Fault Unit :=
  match kind, fields with
  | .flags, [words] => if words.truthy then .ok () else .error (.invariant .noFlags)
  | .viewport, _ | .minorSubdivisions, _ | .axisSteps, _ | .axisArrows, _ | .axisLabels, _ | .axes, _
  | .axisNumbers, _ | .axisSetting, _ => if fields.all isNull then .error (.invariant (.noAxis kind.name)) else .ok ()
  | .folder, children :: _ => do (← children.members).forM checkChild
  | _, _ => .ok ()

/-- The fields of a kind in order, each given or by default. -/
def arranged (given : List (String × Tree)) : List FieldSpec → Except Fault (List Tree)
  | [] => .ok []
  | spec :: rest =>
    match given.lookup spec.name, spec.default with
    | some t, _ | none, some t => (arranged given rest).map (t :: ·)
    | none, none => .error .wrongType

def construct (kind : Kind) (given : List (String × Tree)) : Except Fault Tree := do
  if given.any fun (name, _) => kind.fields.all (·.name != name) then throw .wrongType
  let fields ← arranged given kind.fields
  check kind fields
  return .record kind fields

/-- The kind that an object names. -/
def kindNamed : Json → Except Fault Kind
  | .str s => match Kind.ofName? s with
    | some kind => .ok kind
    | none => .error .noMember
  | _ => .error .wrongType

mutual

def build : Json → Except Fault Tree
  | .arr members => (buildAll members).map .list
  | .obj fields =>
    match fields.lookup "type" with
    | none => .ok (.plain (.obj fields))
    | some name => do
      let kind ← kindNamed name
      construct kind (← buildFields kind fields)
  | j => .ok (.plain j)

def buildAll : List Json → Except Fault (List Tree)
  | [] => .ok []
  | j :: rest => do
    let t ← build j
    return t :: (← buildAll rest)

def buildFields (kind : Kind) : List (String × Json) → Except Fault (List (String × Tree))
  | [] => .ok []
  | (name, j) :: rest =>
    if name = "type" ∨ name = "key" then buildFields kind rest
    else do
      let t ← fieldValue kind name (← build j)
      return (name, t) :: (← buildFields kind rest)

end

end Tree

end GraphScript
