/-
  GraphScript.State.Item — one entry of the list of expressions, and one column of a table,
  translated.

  An item is translated without regard to the folder that it belongs to; a folder has no children
  yet.
-/
import GraphScript.State.Expression
import GraphScript.State.Styling

namespace GraphScript

def Column.ofJson (j : Json) : Except Fault Column := do
  let fs ← j.fields
  let values ← (← (fs.get "values").membersIfAny).mapM Json.latex
  let header ← fs.latex "latex"
  return ⟨values, header, smallFlagIf (fs.truthy "hidden") .hidden, ← fs.styling⟩

inductive ItemKind where
  | folder | table | simulation | expression | image | text
  deriving DecidableEq, Repr

namespace ItemKind

def names : List (String × ItemKind) :=
  [("folder", .folder), ("table", .table), ("simulation", .simulation), ("expression", .expression),
    ("image", .image), ("text", .text)]

def ofJson? : Json → Option ItemKind
  | .str s => names.lookup s
  | _ => none

open Json.Fields

def affix (fs : Json.Fields) : ItemKind → Except Fault Affix
  | .folder => .ok (.folder ⟨fs.get "title", []⟩)
  | .table => do return .leaf (.table (← (← (fs.get "columns").membersIfAny).mapM Column.ofJson))
  | .simulation => do
    let info ← (fs.get "clickableInfo").nested
    return .leaf (.simulation (← rulesOf (← (info.get "rules").membersIfAny)))
  | .expression => do
    let latex ← fs.latex "latex"
    return .leaf (.expression (some (latex.getD ⟨""⟩)))
  | .image => .ok (.leaf (.image (if fs.truthy "image_url" then fs.get "image_url" else .str "")))
  | .text => .ok (.leaf (.note (fs.get "text")))

/-- The small flags that only items of this kind have. -/
def smallFlags (fs : Json.Fields) : ItemKind → List SmallFlag
  | .folder => smallFlagIf (fs.truthy "collapsed") .collapsed
  | .simulation => smallFlagIf (fs.truthy "isPlaying") .playing
  | .image => smallFlagIf (fs.truthy "foreground") .foreground ++ smallFlagIf (fs.truthy "draggable") .draggable
  | .table | .expression | .text => []

def geometry (fs : Json.Fields) : Except Fault (Option OptionGroup) := do
  let width ← fs.latex "width"
  let height ← fs.latex "height"
  let center ← fs.latex "center"
  let angle ← fs.latex "angle"
  let opacity ← fs.latex "opacity"
  if [width, height, center, angle, opacity].all Option.isNone then return none
  return some (.image width height center angle opacity)

/-- The option groups that only items of this kind have. -/
def groups (fs : Json.Fields) : ItemKind → Except Fault (List OptionGroup)
  | .simulation => do return ((← fs.latex "fps").map OptionGroup.fps).toList
  | .expression => fs.expressionGroups
  | .image => do
    let name := if fs.has "name" then some (.name (fs.get "name")) else none
    return [name, ← geometry fs].filterMap id
  | .folder | .table | .text => .ok []

end ItemKind

/-- An item of the list of expressions. -/
def Item.ofJson (j : Json) : Except Fault (Item Affix) := do
  let fs ← j.fields
  let id ← j.need "id"
  let styling ← fs.styling
  match ItemKind.ofJson? (fs.get "type") with
  | none => throw (.unsupportedItem (fs.get "type") id)
  | some kind =>
    let affix ← kind.affix fs
    let groups ← kind.groups fs
    return {
      affix
      smallFlags := smallFlagIf (fs.truthy "secret") .secret ++ smallFlagIf (fs.truthy "hidden") .hidden
        ++ kind.smallFlags fs
      options := .id id.text :: styling ++ groups }

end GraphScript
