/-
  GraphScript.State.Settings — the setting lines of a graph.

  The viewport is always there. Another setting is there only when the graph has one of its fields,
  and says nothing of a field that the graph has not.
-/
import GraphScript.State.Fields
import GraphScript.Text.Lowercase

namespace GraphScript

/-- Fields of a graph that are literally true or false, with the word for either. -/
def graphToggles : List (String × FlagWord × FlagWord) :=
  [("degreeMode", .degrees, .radians), ("showGrid", .gridShown, .gridHidden),
    ("polarMode", .polarGrid, .cartesianGrid), ("squareAxes", .squareAxes, .noSquareAxes),
    ("restrictGridToFirstQuadrant", .firstQuadrant, .allQuadrants)]

def toggleFlags (graph : Json.Fields) : List Flag :=
  graphToggles.filterMap fun (key, whenTrue, whenFalse) =>
    match graph.get key with
    | .bool b => some (.word (if b then whenTrue else whenFalse))
    | _ => none

def flagsSetting (graph : Json) : Except Fault (Option Setting) := do
  let flags := toggleFlags (← graph.fields)
  return if flags.isEmpty then none else some (.flags flags)

def viewportSetting (graph : Json) : Except Fault Setting := do
  let viewport ← graph.need "viewport"
  let x := ⟨← viewport.need "xmin", ← viewport.need "xmax"⟩
  let y := ⟨← viewport.need "ymin", ← viewport.need "ymax"⟩
  return .viewport (some x) (some y)

/-- Modes are named in either case. -/
def ArrowMode.ofJson : Json → Except Fault ArrowMode
  | .str s =>
    let name := Text.lower s
    match ArrowMode.all.find? (·.word == name) with
    | .some mode => .ok mode
    | .none => .error (.notMember (Text.display name) "ArrowMode")
  | _ => .error .noMember

def Visibility.ofJson? (j : Json) : Option Visibility :=
  if j.isNull then none else some (if j.truthy then .shown else .hidden)

namespace Json.Fields

/-- The setting of two fields as they stand. -/
def rawSetting (graph : Fields) (setting : Json → Json → Setting) (x y : String) : Option Setting :=
  if graph.has x || graph.has y then some (setting (graph.get x) (graph.get y)) else none

def arrowSetting (graph : Fields) : Except Fault (Option Setting) := do
  let x ← (graph.get "xAxisArrowMode").present ArrowMode.ofJson
  let y ← (graph.get "yAxisArrowMode").present ArrowMode.ofJson
  return if x.isNone && y.isNone then none else some (.axisArrows x y)

def axesSetting (graph : Fields) : Option Setting :=
  let x := Visibility.ofJson? (graph.get "showXAxis")
  let y := Visibility.ofJson? (graph.get "showYAxis")
  if x.isNone && y.isNone then none else some (.axes x y)

def numbersSetting (graph : Fields) : Option Setting :=
  let x := Visibility.ofJson? (graph.get "xAxisNumbers")
  let y := Visibility.ofJson? (graph.get "yAxisNumbers")
  let polar := Visibility.ofJson? (graph.get "polarNumbers")
  if x.isNone && y.isNone && polar.isNone then none else some (.axisNumbers x y polar)

def axisSettings (graph : Fields) : Except Fault (List Setting) := do
  let arrows ← graph.arrowSetting
  return [graph.rawSetting .minorSubdivisions "xAxisMinorSubdivisions" "yAxisMinorSubdivisions",
    graph.rawSetting .axisSteps "xAxisStep" "yAxisStep", arrows,
    graph.rawSetting .axisLabels "xAxisLabel" "yAxisLabel", graph.axesSetting, graph.numbersSetting].filterMap id

end Json.Fields

/-- The settings that a graph always has or that its axes call for. -/
def graphSettings (graph : Json) : Except Fault (List Setting) := do
  let viewport ← viewportSetting graph
  return viewport :: (← (← graph.fields).axisSettings)

end GraphScript
