/-
  GraphScript.Program.Script — the script of a program, one line of the program after another.

  A part that is nested stands two spaces further in than what holds it. Blocks close in the first
  column, tables excepted, whose brace aligns with the line that opened them. Tables, simulations
  and folders have their option groups first; other items have them last.

  The text of a value of the document fails with `noMember` where it should be a string and with
  `wrongType` where it should be a number or a flag word.
-/
import GraphScript.Fault
import GraphScript.Program.Basic

namespace GraphScript

/-! ## Literals -/

def stringScript (s : String) : String := Text.quoted '"' s

def Latex.script (l : Latex) : String := Text.quoted '\x60' l.text

namespace Json

/-- A value as a string literal. -/
def stringScript : Json → Except Fault String
  | .str s => .ok (GraphScript.stringScript s)
  | _ => .error .noMember

/-- The text of a number: digits of a whole number, the shortest decimal of another. -/
def numberScript : Json → Except Fault String
  | .bool b => .ok (if b then "true" else "false")
  | .int n => .ok (toString n)
  | .float x => .ok (Layout.script.text x)
  | _ => .error .wrongType

/-- Applies to a value that is present. -/
def present {α : Type} (f : Json → Except Fault α) (j : Json) : Except Fault (Option α) :=
  if j.isNull then .ok none else (f j).map some

end Json

def boundScript (bound : Option Latex) : String := (bound.map Latex.script).getD ""

def Interval.script (i : Interval) : String :=
  "[" ++ boundScript i.min ++ ":" ++ boundScript i.max
    ++ (match i.step with | some step => ":" ++ step.script | none => "") ++ "]"

def NumberInterval.script (i : NumberInterval) : Except Fault String := do
  return "[" ++ (← i.start.numberScript) ++ ":" ++ (← i.stop.numberScript) ++ "]"

def ArrowMode.script : ArrowMode → String
  | .none => "-"
  | .positive => "->"
  | .both => "<->"

def Flag.script : Flag → Except Fault String
  | .word w => .ok w.word
  | .given (.str s) => .ok s
  | .given _ => .error .wrongType

/-! ## Blocks -/

def indented (indentation : String) : String := indentation ++ "  "

/-- Lines between braces; a block without lines is `{ }`. -/
def block (closing : String) (lines : List String) : String :=
  if lines.isEmpty then "\x7b \x7d" else "\x7b\n" ++ Text.joined "\n" lines ++ "\n" ++ closing ++ "\x7d"

def ClickableRule.script (indentation : String) (r : ClickableRule) : String :=
  indentation ++ r.assignment.script ++ " <- " ++ r.expression.script
    ++ (match r.id with | some id => "; id: " ++ stringScript id | none => "")

def rulesScript (indentation : String) (rules : List ClickableRule) : String :=
  block "" (rules.map (·.script (indented indentation)))

def RegressionParameter.script (p : RegressionParameter) : Except Fault String := do
  return p.parameter.script ++ "=" ++ (← p.value.numberScript)

def parametersScript (parameters : List RegressionParameter) : Except Fault String :=
  if parameters.isEmpty then .ok " " else (parameters.mapM RegressionParameter.script).map (Text.joined ", ")

/-! ## Option groups -/

namespace OptionGroup

/-- What stands first in a group. -/
def special (indentation : String) : OptionGroup → Except Fault String
  | .id value => .ok (stringScript value)
  | .color value _ | .label value _ _ _ => (value.present Json.stringScript).map (·.getD "")
  | .slider value _ _ | .cdf value _ => .ok ((value.map Interval.script).getD "")
  | .domain value | .polarDomain value => .ok value.script
  | .regression parameters _ _ => (parametersScript parameters).map fun text => "\x7b" ++ text ++ "\x7d"
  | .fps value => .ok value.script
  | .clickableRules rules _ => .ok (rulesScript indentation rules)
  | .clickableLabel value | .name value => value.stringScript
  | .display _ | .binsAligned _ | .histogramMode _ | .drag _ | .points _ _ _ | .lines _ _ _ | .fill _ _
  | .boxplot _ _ _ | .dotplot _ | .image _ _ _ _ _ => .ok ""

def flags : OptionGroup → List Flag
  | .label _ _ _ flags | .slider _ _ flags | .cdf _ flags | .regression _ _ flags | .clickableRules _ flags
  | .display flags | .binsAligned flags | .histogramMode flags | .drag flags | .points flags _ _ | .lines flags _ _
  | .fill flags _ | .boxplot _ _ flags | .dotplot flags => flags
  | .id _ | .color _ _ | .domain _ | .polarDomain _ | .fps _ | .clickableLabel _ | .name _ | .image _ _ _ _ _ => []

/-- The named expressions of a group. -/
def assignments : OptionGroup → List (String × Option Latex)
  | .color _ source => [("var", source)]
  | .label _ size angle _ => [("size", size), ("angle", angle)]
  | .slider _ period _ => [("period", period)]
  | .regression _ residuals _ => [("residuals", residuals)]
  | .points _ opacity size => [("opacity", opacity), ("size", size)]
  | .lines _ opacity width => [("opacity", opacity), ("width", width)]
  | .fill _ opacity => [("opacity", opacity)]
  | .boxplot breadth offset _ => [("breadth", breadth), ("offset", offset)]
  | .image width height center angle opacity =>
    [("width", width), ("height", height), ("center", center), ("angle", angle), ("opacity", opacity)]
  | .id _ | .domain _ | .polarDomain _ | .cdf _ _ | .fps _ | .clickableRules _ _ | .clickableLabel _ | .name _
  | .display _ | .binsAligned _ | .histogramMode _ | .drag _ | .dotplot _ => []

def assignmentScripts (g : OptionGroup) : List String :=
  g.assignments.filterMap fun (word, value) => value.map fun l => word ++ "=" ++ l.script

def script (indentation : String) (g : OptionGroup) : Except Fault String := do
  let special ← g.special indentation
  let flags ← g.flags.mapM Flag.script
  let trailing := Text.joined ", " (flags ++ g.assignmentScripts)
  let body := special ++ (if special = "" ∨ trailing = "" then "" else ", ") ++ trailing
  return g.kind.keyword ++ (if body = "" then ":" else ": " ++ body)

end OptionGroup

/-! ## Items -/

def flagsBefore (flags : List SmallFlag) : String := String.join (flags.map (·.word ++ " "))

def cellsScript (values : List Latex) : String := "[" ++ Text.joined ", " (values.map Latex.script) ++ "]"

/-- The header of a column is not written. -/
def Column.script (indentation : String) (c : Column) : Except Fault String := do
  let options ← c.options.mapM (OptionGroup.script indentation)
  return indentation ++ flagsBefore c.smallFlags ++ cellsScript c.values ++ String.join (options.map ("; " ++ ·))

def Leaf.script (indentation : String) : Leaf → Except Fault String
  | .table columns => do
    return "table " ++ block indentation (← columns.mapM (Column.script (indented indentation)))
  | .simulation rules => .ok ("simulation " ++ rulesScript indentation rules)
  | .expression latex => .ok ((latex.map Latex.script).getD "")
  | .image url => url.stringScript.map ("image " ++ ·)
  | .note text => (text.present Json.stringScript).map fun
    | none => "note"
    | some text => "note " ++ text

/-- Whether the option groups come first. -/
def Kind.optionsFirst : Kind → Bool
  | .folder | .table | .simulation => true
  | _ => false

/-- An item of the given kind, from the text of its affix and of its option groups. -/
def itemLayout (kind : Kind) (indentation : String) (flags : List SmallFlag) (affix : String)
    (groups : List String) : String :=
  let affix := if affix = "" then Text.joined " " (flags.map (·.word)) else flagsBefore flags ++ affix
  let options := Text.joined " " (groups.map (· ++ ";"))
  let gap := if affix = "" ∨ options = "" then "" else " "
  indentation ++ if kind.optionsFirst then options ++ gap ++ affix else affix ++ gap ++ options

/-- An item, its affix being of the given kind and with the given text. -/
def Item.scriptWith {α : Type} (kind : α → Kind) (affixScript : α → Except Fault String) (indentation : String)
    (i : Item α) : Except Fault String := do
  let affix ← affixScript i.affix
  let groups ← i.options.mapM (OptionGroup.script indentation)
  return itemLayout (kind i.affix) indentation i.smallFlags affix groups

def leafItemScript (indentation : String) (i : Item Leaf) : Except Fault String :=
  i.scriptWith Leaf.kind (Leaf.script indentation) indentation

def Folder.script (indentation : String) (f : Folder) : Except Fault String := do
  let title ← f.title.orNull.present Json.stringScript
  let children ← f.children.mapM (leafItemScript (indented indentation))
  return "folder " ++ (match title with | some title => title ++ " " | none => "") ++ block "" children

def Affix.script (indentation : String) : Affix → Except Fault String
  | .leaf l => l.script indentation
  | .folder f => f.script indentation

def itemScript (indentation : String) (i : Item Affix) : Except Fault String :=
  i.scriptWith Affix.kind (Affix.script indentation) indentation

/-! ## Settings -/

/-- The parts of a setting that are present, each behind its name. -/
def axisScript (kind : Kind) (parts : List (String × Option String)) : Except Fault String :=
  match parts.filterMap fun (name, part) => part.map fun text => name ++ " " ++ text with
  | [] => .error (.invariant (.noneDefined kind.name))
  | present => .ok (Text.joined ", " present)

/-- The parts of x and y under one reading. -/
def axisParts {α : Type} (read : α → Except Fault (Option String)) (x y : α) :
    Except Fault (List (String × Option String)) := do
  return [("x", ← read x), ("y", ← read y)]

def Setting.body (s : Setting) : Except Fault String :=
  match s with
  | .seed value => value.stringScript
  | .flags words => (words.mapM Flag.script).map (Text.joined ", ")
  | .viewport x y => do
    let interval : Option NumberInterval → Except Fault (Option String)
      | none => .ok none
      | some i => i.script.map some
    axisScript s.kind (← axisParts interval x y)
  | .minorSubdivisions x y | .axisSteps x y => do
    axisScript s.kind (← axisParts (Json.present Json.numberScript) x y)
  | .axisArrows x y => axisScript s.kind [("x", x.map ArrowMode.script), ("y", y.map ArrowMode.script)]
  | .axisLabels x y => do axisScript s.kind (← axisParts (Json.present Json.stringScript) x y)
  | .axes x y => axisScript s.kind [("x", x.map Visibility.word), ("y", y.map Visibility.word)]
  | .axisNumbers x y polar =>
    axisScript s.kind
      [("x", x.map Visibility.word), ("y", y.map Visibility.word), ("polar", polar.map Visibility.word)]

def Setting.script (s : Setting) : Except Fault String := s.body.map fun body => s.kind.keyword ++ ": " ++ body

/-! ## Programs -/

def Line.script : Line → Except Fault String
  | .setting s => s.script
  | .item i => itemScript "" i

def Program.script (p : Program) : Except Fault String := (p.lines.mapM Line.script).map (Text.joined "\n")

end GraphScript
