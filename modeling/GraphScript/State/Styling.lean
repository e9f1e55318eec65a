/-
  GraphScript.State.Styling — the option groups that items of every kind and columns share.

  A group is there only when the item defines one of its fields.
-/
import GraphScript.State.Fields

namespace GraphScript.Json.Fields

def visibilityFlag (fs : Fields) (key : String) : List Flag :=
  if fs.has key then [.word (if fs.truthy key then .shown else .hidden)] else []

def pointFlags (fs : Fields) : List Flag :=
  let style := fs.get "pointStyle"
  fs.visibilityFlag "points"
    ++ if style.isNull || style.is "POINT" then [] else [.word (if style.is "OPEN" then .pointOpen else .pointCross)]

def points (fs : Fields) : Except Fault (Option OptionGroup) :=
  if fs.pointFlags.isEmpty && !fs.has "pointOpacity" && !fs.has "pointSize" then .ok none
  else do return some (.points fs.pointFlags (← fs.latex "pointOpacity") (← fs.latex "pointSize"))

def lineFlags (fs : Fields) : List Flag :=
  let style := fs.get "lineStyle"
  fs.visibilityFlag "lines"
    ++ if style.isNull || style.is "SOLID" then [] else [.word (if style.is "DASHED" then .lineDashed else .lineDotted)]

def lines (fs : Fields) : Except Fault (Option OptionGroup) :=
  if fs.lineFlags.isEmpty && !fs.has "lineOpacity" && !fs.has "lineWidth" then .ok none
  else do return some (.lines fs.lineFlags (← fs.latex "lineOpacity") (← fs.latex "lineWidth"))

def fill (fs : Fields) : Except Fault (Option OptionGroup) :=
  if !fs.has "fill" && !fs.has "fillOpacity" then .ok none
  else do return some (.fill (fs.visibilityFlag "fill") (← fs.latex "fillOpacity"))

def color (fs : Fields) : Except Fault (Option OptionGroup) :=
  if !fs.has "color" && !fs.has "colorLatex" then .ok none
  else do return some (.color (fs.get "color") (← fs.latex "colorLatex"))

def dragModes : List (String × FlagWord) := [("X", .dragX), ("Y", .dragY), ("XY", .dragXY)]

def drag (fs : Fields) : Except Fault (Option OptionGroup) := do
  return (← (fs.get "dragMode").lookupIn dragModes).map fun w => .drag [.word w]

def styling (fs : Fields) : Except Fault (List OptionGroup) := do
  let points ← fs.points
  let lines ← fs.lines
  let fill ← fs.fill
  let color ← fs.color
  let drag ← fs.drag
  return [points, lines, fill, color, drag].filterMap id

end GraphScript.Json.Fields
