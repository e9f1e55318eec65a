/-
  GraphScript.State.Expression — the option groups of expressions.

  They are read in the order in which they are written, so of two faults the one of the earlier
  group is found. Only `domain` makes a domain group; a parametric domain is not read.
-/
import GraphScript.State.Fields

namespace GraphScript

/-! ## Clickable objects -/

def ClickableRule.ofJson (j : Json) : Except Fault ClickableRule := do
  let fs ← j.fields
  let id := if fs.has "id" then some (fs.get "id").text else none
  let side (key : String) : Except Fault Latex :=
    if fs.truthy key then (fs.get key).latex else .ok ⟨""⟩
  return ⟨id, ← side "assignment", ← side "expression"⟩

/-- The rules of a list. -/
def rulesOf (members : List Json) : Except Fault (List ClickableRule) := members.mapM ClickableRule.ofJson

namespace Json.Fields

def clickableLabel (info : Fields) : Option OptionGroup :=
  if info.has "description" then some (.clickableLabel (info.get "description")) else none

def clickableRules (info : Fields) : Except Fault (Option OptionGroup) :=
  if info.has "rules" then do
    let rules ← rulesOf (← (info.get "rules").members)
    return some (.clickableRules rules (flagIf (!info.truthy "enabled") .disabled))
  else .ok none

/-! ## Regressions and sliders -/

def regression (fs : Fields) : Except Fault (Option OptionGroup) :=
  if !fs.truthy "regressionParameters" && !fs.truthy "residualVariable" && !fs.truthy "isLogModeRegression" then
    .ok none
  else do
    let parameters ← (fs.get "regressionParameters").nested
    let residuals ← if fs.truthy "residualVariable" then (fs.get "residualVariable").latex.map some else .ok none
    return some (.regression (parameters.map fun (name, value) => ⟨⟨name⟩, value⟩) residuals
      (flagIf (fs.truthy "isLogModeRegression") .logMode))

/-- Forward and back is the mode without a flag. -/
def loopModes : List (String × FlagWord) :=
  [("LOOP_FORWARD", .loopForward), ("PLAY_ONCE", .onceForward), ("PLAY_INDEFINITELY", .foreverForward)]

def slider (fs : Fields) : Except Fault (Option OptionGroup) := do
  let slider ← (fs.get "slider").nested
  let mode ← (slider.get "loopMode").lookupIn loopModes
  let flags := flagIf (slider.truthy "hardMin") .hardMin ++ flagIf (slider.truthy "hardMax") .hardMax
    ++ (mode.map Flag.word).toList ++ flagIf ((slider.get "playDirection").equals (.int (-1))) .left
  let bounds ← slider.interval
  let period ← slider.latex "animationPeriod"
  if flags.isEmpty && bounds.bounds?.isNone && period.isNone then return none
  return some (.slider bounds.bounds? period flags)

/-! ## Domains -/

def polarDomain (fs : Fields) : Except Fault (Option OptionGroup) :=
  if fs.has "polarDomain" then do return some (.polarDomain (← (← (fs.get "polarDomain").fields).interval))
  else .ok none

def domain (fs : Fields) : Except Fault (Option OptionGroup) :=
  if fs.has "domain" then do return some (.domain (← (← (fs.get "domain").fields).interval))
  else .ok none

def cdf (fs : Fields) : Except Fault (Option OptionGroup) := do
  let cdf ← (fs.get "cdf").nested
  let bounds ← cdf.interval
  let flags := flagIf (cdf.truthy "show") .shown
  if flags.isEmpty && bounds.bounds?.isNone then return none
  return some (.cdf bounds.bounds? flags)

/-! ## Labels -/

def editableModes : List (String × FlagWord) := [("MATH", .editableMath), ("TEXT", .editableText)]

def label (fs : Fields) : Except Fault (Option OptionGroup) := do
  let editable ← (fs.get "editableLabelMode").lookupIn editableModes
  let flags := flagIf (fs.truthy "showLabel") .shown ++ (editable.map Flag.word).toList
    ++ flagIf (fs.truthy "interactiveLabel") .showOnHover ++ flagIf (fs.truthy "suppressTextOutline") .noOutline
  let text := (fs.get "label").orNull
  let size ← fs.latex "labelSize"
  let angle ← fs.latex "labelAngle"
  if flags.isEmpty && text.isNull && size.isNone && angle.isNone then return none
  return some (.label text size angle flags)

def fraction (fs : Fields) : Option OptionGroup :=
  if fs.truthy "displayEvaluationAsFraction" then some (.display [.word .fraction]) else none

/-! ## Visualizations -/

def binsAligned (viz : Fields) : Option OptionGroup :=
  if (viz.get "binAlignment").is "left" then some (.binsAligned [.word .left]) else none

/-- Counting is the mode without a group. -/
def histogramMode (viz : Fields) : Option OptionGroup :=
  let mode := viz.get "histogramMode"
  if mode.isNull || mode.is "count" then none else some (.histogramMode [.given mode])

/-- What a state calls exact is binned along x. -/
def dotplot (viz : Fields) : Option OptionGroup :=
  if (viz.get "dotplotXMode").is "exact" then some (.dotplot [.word .binnedX]) else none

def boxplot (viz : Fields) : Except Fault (Option OptionGroup) :=
  let flags := flagIf (viz.truthy "showBoxplotOutliers") .includeOutliers
    ++ flagIf ((viz.get "alignedAxis").is "y") .alignedToY
  if flags.isEmpty && !viz.has "breadth" && !viz.has "axisOffset" then .ok none
  else do return some (.boxplot (← viz.latex "breadth") (← viz.latex "axisOffset") flags)

/-! ## All of them -/

def expressionGroups (fs : Fields) : Except Fault (List OptionGroup) := do
  let info ← (fs.get "clickableInfo").nested
  let rules ← info.clickableRules
  let regression ← fs.regression
  let slider ← fs.slider
  let polarDomain ← fs.polarDomain
  let domain ← fs.domain
  let cdf ← fs.cdf
  let label ← fs.label
  let viz ← (fs.get "vizProps").nested
  let boxplot ← viz.boxplot
  return [info.clickableLabel, rules, regression, slider, polarDomain, domain, cdf, label, fs.fraction,
    viz.binsAligned, viz.histogramMode, viz.dotplot, boxplot].filterMap id

end Json.Fields

end GraphScript
