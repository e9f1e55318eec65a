/-
  GraphScript.Program.OfTree — the part of a program that a tree stands for.

  A tree need not be that of a program. It is taken for one part by part, in the order in which the
  script is written, and the first place that cannot be written is its fault. What the script does
  not show is free: a flag list may be a text (each character is a flag) and an expression any
  record with a text as its `value`. The header of a column and a title that is not truthy are
  dropped.
-/
import GraphScript.Program.Build
import GraphScript.Program.Script

namespace GraphScript.Tree

def typeName : Tree → String
  | .plain j => j.kindName
  | .list _ => "tuple"
  | .token (.smallFlag _) => "SmallFlag"
  | .token (.arrowMode _) => "ArrowMode"
  | .token (.visibility _) => "ShowOrHide"
  | .record kind _ => kind.name

def field? (name : String) : Tree → Option Tree
  | .record kind fields => ((kind.fields.map (·.name)).zip fields).lookup name
  | _ => none

/-- Applies to a tree that is not null. -/
def present {α : Type} (f : Tree → Except Fault α) (t : Tree) : Except Fault (Option α) :=
  if t.isNull then .ok none else (f t).map some

/-! ## Literals -/

def text : Tree → Except Fault String
  | .plain (.str s) => .ok s
  | _ => .error .noMember

/-- A text as a value; an absent one is null. -/
def textOrNull (t : Tree) : Except Fault Json := (t.present text).map fun s => (s.map Json.str).getD .null

def number : Tree → Except Fault Json
  | .plain j => j.numberScript.map fun _ => j
  | _ => .error .wrongType

/-- A number as a value; an absent one is null. -/
def numberOrNull (t : Tree) : Except Fault Json := (t.present number).map (·.getD .null)

def latex (t : Tree) : Except Fault Latex :=
  match t.field? "value" with
  | some v => v.text.map Latex.mk
  | none => .error .noMember

def latexList (t : Tree) : Except Fault (List Latex) := do (← t.members).mapM latex

/-- The step is looked at before the ends. -/
def interval : Tree → Except Fault Interval
  | .record .interval [min, max, step] => do
    let step ← step.present latex
    return { min := ← min.present latex, max := ← max.present latex, step }
  | _ => .error .noMember

def numberInterval : Tree → Except Fault NumberInterval
  | .record .numberInterval [start, stop] => do return ⟨← start.number, ← stop.number⟩
  | _ => .error .noMember

/-- The text of a flag. -/
def flag : Tree → Except Fault Flag
  | .plain (.str s) => .ok (.given (.str s))
  | _ => .error .wrongType

def smallFlags (t : Tree) : Except Fault (List SmallFlag) := do
  (← t.members).mapM fun
    | .token (.smallFlag f) => .ok f
    | _ => .error .noMember

/-! ## Rules and parameters -/

def rule : Tree → Except Fault ClickableRule
  | .record .clickableRule [id, assignment, expression] => do
    let assignment ← assignment.latex
    let expression ← expression.latex
    return ⟨← id.present text, assignment, expression⟩
  | _ => .error .noMember

def rules (t : Tree) : Except Fault (List ClickableRule) := do (← t.members).mapM rule

def parameter : Tree → Except Fault RegressionParameter
  | .record .regressionParameter [parameter, value] => do return ⟨← parameter.latex, ← value.number⟩
  | _ => .error .noMember

def parameters (t : Tree) : Except Fault (List RegressionParameter) :=
  if t.truthy then do (← t.members).mapM parameter else .ok []

/-! ## Option groups -/

/-- A group: its special part first, then what its flags are, its expressions, and the text of each flag. -/
def optionGroup : Tree → Except Fault OptionGroup
  | .record .idOption [value] => return .id (← value.text)
  | .record .colorOption [value, source] => return .color (← value.textOrNull) (← source.present latex)
  | .record .labelOption [value, size, angle, flags] => do
    let value ← value.textOrNull
    let flags ← flags.members
    return .label value (← size.present latex) (← angle.present latex) (← flags.mapM flag)
  | .record .sliderOption [value, period, flags] => do
    let value ← value.present interval
    let flags ← flags.members
    return .slider value (← period.present latex) (← flags.mapM flag)
  | .record .domainOption [value] => return .domain (← value.interval)
  | .record .polarDomainOption [value] => return .polarDomain (← value.interval)
  | .record .cdfOption [value, flags] => do
    let value ← value.present interval
    return .cdf value (← (← flags.members).mapM flag)
  | .record .regressionOption [parameters, residuals, flags] => do
    let parameters ← parameters.parameters
    let flags ← flags.members
    return .regression parameters (← residuals.present latex) (← flags.mapM flag)
  | .record .fpsOption [value] => return .fps (← value.latex)
  | .record .clickableRulesOption [rules, flags] => do
    let rules ← rules.rules
    return .clickableRules rules (← (← flags.members).mapM flag)
  | .record .clickableLabelOption [value] => return .clickableLabel (.str (← value.text))
  | .record .nameOption [value] => return .name (.str (← value.text))
  | .record .displayOption [flags] => return .display (← (← flags.members).mapM flag)
  | .record .binsAlignedOption [flags] => return .binsAligned (← (← flags.members).mapM flag)
  | .record .histogramModeOption [flags] => return .histogramMode (← (← flags.members).mapM flag)
  | .record .dragOption [flags] => return .drag (← (← flags.members).mapM flag)
  | .record .dotplotOption [flags] => return .dotplot (← (← flags.members).mapM flag)
  | .record .pointsOption [flags, opacity, size] => do
    let flags ← flags.members
    let opacity ← opacity.present latex
    let size ← size.present latex
    return .points (← flags.mapM flag) opacity size
  | .record .linesOption [flags, opacity, width] => do
    let flags ← flags.members
    let opacity ← opacity.present latex
    let width ← width.present latex
    return .lines (← flags.mapM flag) opacity width
  | .record .fillOption [flags, opacity] => do
    let flags ← flags.members
    let opacity ← opacity.present latex
    return .fill (← flags.mapM flag) opacity
  | .record .boxplotOption [breadth, offset, flags] => do
    let flags ← flags.members
    return .boxplot (← breadth.present latex) (← offset.present latex) (← flags.mapM flag)
  | .record .imageOption [width, height, center, angle, opacity] =>
    return .image (← width.present latex) (← height.present latex) (← center.present latex) (← angle.present latex)
      (← opacity.present latex)
  | t => .error (.invariant (.optionGroup t.typeName))

def optionGroups (t : Tree) : Except Fault (List OptionGroup) := do (← t.members).mapM optionGroup

/-! ## Items -/

/-- An item has the styling of a column and no cells, so it fails only where a column would have them. -/
def column : Tree → Except Fault Column
  | .record .column [values, _, smallFlags, options] => do
    let smallFlags ← smallFlags.smallFlags
    let options ← options.optionGroups
    return ⟨← values.latexList, none, smallFlags, options⟩
  | .record .item [_, smallFlags, options] => do
    discard smallFlags.smallFlags
    discard options.optionGroups
    throw .noMember
  | _ => .error .noMember

def leaf : Tree → Except Fault Leaf
  | .record .table [columns] => do
    return .table (← if columns.truthy then do (← columns.members).mapM column else .ok [])
  | .record .simulation [rules] => return .simulation (← rules.rules)
  | .record .expression [latex] => return .expression (← latex.present Tree.latex)
  | .record .image [url] => return .image (.str (← url.text))
  | .record .note [text] => return .note (← text.textOrNull)
  | t => .error (.invariant (.affix t.typeName))

def itemWith {α : Type} (affix : Tree → Except Fault α) : Tree → Except Fault (Item α)
  | .record .item [head, smallFlags, options] => do
    let smallFlags ← smallFlags.smallFlags
    let head ← affix head
    return ⟨head, smallFlags, ← options.optionGroups⟩
  | _ => .error .noMember

def affix : Tree → Except Fault Affix
  | .record .folder [children, title] => do
    let title ← if title.truthy then title.textOrNull else .ok .null
    return .folder ⟨title, ← (← children.members).mapM (itemWith leaf)⟩
  | t => t.leaf.map .leaf

def item (t : Tree) : Except Fault (Item Affix) := itemWith affix t

/-! ## Lines -/

def arrow : Tree → Except Fault ArrowMode
  | .token (.arrowMode m) => .ok m
  | _ => .error .wrongType

def visible : Tree → Except Fault Visibility
  | .token (.visibility v) => .ok v
  | _ => .error .noMember

/-- The kinds of record that are lines. -/
def line : Tree → Except Fault Line
  | .record .item fields => return .item (← item (.record .item fields))
  | .record .seed [value] => return .setting (.seed (.str (← value.text)))
  | .record .flags [words] => return .setting (.flags (← (← words.members).mapM flag))
  | .record .viewport [x, y] => return .setting (.viewport (← x.present numberInterval) (← y.present numberInterval))
  | .record .minorSubdivisions [x, y] => return .setting (.minorSubdivisions (← x.numberOrNull) (← y.numberOrNull))
  | .record .axisSteps [x, y] => return .setting (.axisSteps (← x.numberOrNull) (← y.numberOrNull))
  | .record .axisArrows [x, y] => return .setting (.axisArrows (← x.present arrow) (← y.present arrow))
  | .record .axisLabels [x, y] => return .setting (.axisLabels (← x.textOrNull) (← y.textOrNull))
  | .record .axes [x, y] => return .setting (.axes (← x.present visible) (← y.present visible))
  | .record .axisNumbers [x, y, polar] =>
    return .setting (.axisNumbers (← x.present visible) (← y.present visible) (← polar.present visible))
  | t => .error (.invariant (.line t.typeName))

/-- The script of lines given as trees. Each line is taken and written before the next. -/
def script (lines : List Tree) : Except Fault String :=
  (lines.mapM fun (t : Tree) => do
    let taken ← t.line
    taken.script).map (Text.joined "\n")

end GraphScript.Tree
