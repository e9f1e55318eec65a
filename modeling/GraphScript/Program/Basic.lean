/-
  GraphScript.Program.Basic — programs: what a graph state is translated into.

  A program is a list of lines, settings first, then the items of the graph from top to bottom. An
  item is an affix (what it is), small flags and option groups. Folders hold items that are no
  folders.

  A field of type `Json` holds a value of the document as it stands there; `null` means that it is
  absent.
-/
import GraphScript.Json.Equality
import GraphScript.Program.Kind

namespace GraphScript

/-- An expression, carried unread. -/
structure Latex where
  text : String
  deriving DecidableEq, Repr

/-- Each bound may be missing. -/
structure Interval where
  min : Option Latex := none
  max : Option Latex := none
  step : Option Latex := none
  deriving DecidableEq, Repr

structure NumberInterval where
  start : Json
  stop : Json
  deriving DecidableEq

/-! ## Words -/

inductive SmallFlag where
  | secret | hidden | foreground | draggable | playing | collapsed
  deriving DecidableEq, Repr

def SmallFlag.word : SmallFlag → String
  | .secret => "secret"
  | .hidden => "hidden"
  | .foreground => "foreground"
  | .draggable => "draggable"
  | .playing => "playing"
  | .collapsed => "collapsed"

def SmallFlag.all : List SmallFlag := [.secret, .hidden, .foreground, .draggable, .playing, .collapsed]

inductive ArrowMode where
  | none | positive | both
  deriving DecidableEq, Repr

def ArrowMode.word : ArrowMode → String
  | .none => "none"
  | .positive => "positive"
  | .both => "both"

def ArrowMode.all : List ArrowMode := [.none, .positive, .both]

inductive Visibility where
  | shown | hidden
  deriving DecidableEq, Repr

def Visibility.word : Visibility → String
  | .shown => "show"
  | .hidden => "hide"

def Visibility.all : List Visibility := [.shown, .hidden]

/-- The flag words of settings and option groups. -/
inductive FlagWord where
  | degrees | radians | gridShown | gridHidden | polarGrid | cartesianGrid | squareAxes | noSquareAxes
  | firstQuadrant | allQuadrants
  | shown | hidden | pointOpen | pointCross | lineDashed | lineDotted
  | dragX | dragY | dragXY
  | hardMin | hardMax | loopForward | onceForward | foreverForward | left
  | editableMath | editableText | showOnHover | noOutline
  | fraction | binnedX | includeOutliers | alignedToY | logMode | disabled
  deriving DecidableEq, Repr

def FlagWord.word : FlagWord → String
  | .degrees => "degrees"
  | .radians => "radians"
  | .gridShown => "show grid"
  | .gridHidden => "hide grid"
  | .polarGrid => "polar grid"
  | .cartesianGrid => "cartesian grid"
  | .squareAxes => "square axes"
  | .noSquareAxes => "no square axes"
  | .firstQuadrant => "first quadrant"
  | .allQuadrants => "all quadrants"
  | .shown => "show"
  | .hidden => "hide"
  | .pointOpen => "open"
  | .pointCross => "cross"
  | .lineDashed => "dashed"
  | .lineDotted => "dotted"
  | .dragX => "x"
  | .dragY => "y"
  | .dragXY => "xy"
  | .hardMin => "hard min"
  | .hardMax => "hard max"
  | .loopForward => "loop forward"
  | .onceForward => "once forward"
  | .foreverForward => "forever forward"
  | .left => "left"
  | .editableMath => "editable math"
  | .editableText => "editable text"
  | .showOnHover => "show on hover"
  | .noOutline => "no outline"
  | .fraction => "fraction"
  | .binnedX => "binned x"
  | .includeOutliers => "include outliers"
  | .alignedToY => "aligned to y"
  | .logMode => "log mode"
  | .disabled => "disabled"

/-- A flag: a word, or a value given for one. -/
inductive Flag where
  | word (w : FlagWord)
  | given (value : Json)
  deriving DecidableEq

/-! ## Settings -/

inductive Setting where
  | seed (value : Json)
  | flags (flags : List Flag)
  | viewport (x y : Option NumberInterval)
  | minorSubdivisions (x y : Json)
  | axisSteps (x y : Json)
  | axisArrows (x y : Option ArrowMode)
  | axisLabels (x y : Json)
  | axes (x y : Option Visibility)
  | axisNumbers (x y polar : Option Visibility)
  deriving DecidableEq

def Setting.kind : Setting → Kind
  | .seed _ => .seed
  | .flags _ => .flags
  | .viewport _ _ => .viewport
  | .minorSubdivisions _ _ => .minorSubdivisions
  | .axisSteps _ _ => .axisSteps
  | .axisArrows _ _ => .axisArrows
  | .axisLabels _ _ => .axisLabels
  | .axes _ _ => .axes
  | .axisNumbers _ _ _ => .axisNumbers

/-! ## Option groups -/

/-- `assignment <- expression`, run when the owner is clicked. -/
structure ClickableRule where
  id : Option String
  assignment : Latex
  expression : Latex
  deriving DecidableEq, Repr

structure RegressionParameter where
  parameter : Latex
  value : Json
  deriving DecidableEq

inductive OptionGroup where
  | id (value : String)
  | color (value : Json) (source : Option Latex)
  | label (value : Json) (size angle : Option Latex) (flags : List Flag)
  | slider (value : Option Interval) (period : Option Latex) (flags : List Flag)
  | domain (value : Interval)
  | polarDomain (value : Interval)
  | cdf (value : Option Interval) (flags : List Flag)
  | regression (parameters : List RegressionParameter) (residuals : Option Latex) (flags : List Flag)
  | fps (value : Latex)
  | clickableRules (rules : List ClickableRule) (flags : List Flag)
  | clickableLabel (value : Json)
  | name (value : Json)
  | display (flags : List Flag)
  | binsAligned (flags : List Flag)
  | histogramMode (flags : List Flag)
  | drag (flags : List Flag)
  | points (flags : List Flag) (opacity size : Option Latex)
  | lines (flags : List Flag) (opacity width : Option Latex)
  | fill (flags : List Flag) (opacity : Option Latex)
  | boxplot (breadth offset : Option Latex) (flags : List Flag)
  | dotplot (flags : List Flag)
  | image (width height center angle opacity : Option Latex)
  deriving DecidableEq

def OptionGroup.kind : OptionGroup → Kind
  | .id _ => .idOption
  | .color _ _ => .colorOption
  | .label _ _ _ _ => .labelOption
  | .slider _ _ _ => .sliderOption
  | .domain _ => .domainOption
  | .polarDomain _ => .polarDomainOption
  | .cdf _ _ => .cdfOption
  | .regression _ _ _ => .regressionOption
  | .fps _ => .fpsOption
  | .clickableRules _ _ => .clickableRulesOption
  | .clickableLabel _ => .clickableLabelOption
  | .name _ => .nameOption
  | .display _ => .displayOption
  | .binsAligned _ => .binsAlignedOption
  | .histogramMode _ => .histogramModeOption
  | .drag _ => .dragOption
  | .points _ _ _ => .pointsOption
  | .lines _ _ _ => .linesOption
  | .fill _ _ => .fillOption
  | .boxplot _ _ _ => .boxplotOption
  | .dotplot _ => .dotplotOption
  | .image _ _ _ _ _ => .imageOption

/-! ## Items -/

/-- A column of a table: its cells from top to bottom. -/
structure Column where
  values : List Latex
  header : Option Latex
  smallFlags : List SmallFlag
  options : List OptionGroup
  deriving DecidableEq

/-- What an item other than a folder is. -/
inductive Leaf where
  | table (columns : List Column)
  | simulation (rules : List ClickableRule)
  | expression (latex : Option Latex)
  | image (url : Json)
  | note (text : Json)
  deriving DecidableEq

structure Item (α : Type) where
  affix : α
  smallFlags : List SmallFlag
  options : List OptionGroup
  deriving DecidableEq

structure Folder where
  title : Json
  children : List (Item Leaf)
  deriving DecidableEq

inductive Affix where
  | leaf (leaf : Leaf)
  | folder (folder : Folder)
  deriving DecidableEq

def Leaf.kind : Leaf → Kind
  | .table _ => .table
  | .simulation _ => .simulation
  | .expression _ => .expression
  | .image _ => .image
  | .note _ => .note

def Affix.kind : Affix → Kind
  | .leaf l => l.kind
  | .folder _ => .folder

/-! ## Programs -/

inductive Line where
  | setting (setting : Setting)
  | item (item : Item Affix)
  deriving DecidableEq

structure Program where
  lines : List Line
  deriving DecidableEq

namespace Program

def settings (p : Program) : List Setting :=
  p.lines.filterMap fun | .setting s => some s | .item _ => none

def items (p : Program) : List (Item Affix) :=
  p.lines.filterMap fun | .setting _ => none | .item i => some i

def folders (p : Program) : List Folder :=
  p.items.filterMap fun i => match i.affix with | .folder f => some f | .leaf _ => none

end Program

end GraphScript
