/-
  GraphScript.Program.Tree — programs as plain trees of records, and their dump.

  A record holds a value for each field of its kind, in order. Every program has its tree
  (`Program.tree`); a tree need not be that of a program: any value may stand in any field.

  The dump of a record is an object with its kind under `type`, its keyword, if any, under `key`,
  and then its fields; fields that are null are left out.
-/
import GraphScript.Json.Writer
import GraphScript.Program.Basic

namespace GraphScript

inductive Token where
  | smallFlag (f : SmallFlag)
  | arrowMode (m : ArrowMode)
  | visibility (v : Visibility)
  deriving DecidableEq, Repr

def Token.word : Token → String
  | .smallFlag f => f.word
  | .arrowMode m => m.word
  | .visibility v => v.word

inductive Tree where
  | plain (j : Json)
  | list (members : List Tree)
  | token (t : Token)
  | record (kind : Kind) (fields : List Tree)
  deriving Inhabited

namespace Tree

def null : Tree := .plain .null

def str (s : String) : Tree := .plain (.str s)

def isNull : Tree → Bool
  | .plain .null => true
  | _ => false

end Tree

/-! ## Fields -/

/-- A field of a kind of record; without a default it must be given. -/
structure FieldSpec where
  name : String
  default : Option Tree

/-- A field that must be given. -/
def FieldSpec.needed (name : String) : FieldSpec := ⟨name, none⟩

/-- A field that may be absent. -/
def FieldSpec.optional (name : String) : FieldSpec := ⟨name, some .null⟩

/-- A list that is empty unless given. -/
def FieldSpec.many (name : String) : FieldSpec := ⟨name, some (.list [])⟩

/-- A list of one flag unless given. -/
def FieldSpec.flag (name : String) (w : FlagWord) : FieldSpec := ⟨name, some (.list [.str w.word])⟩

open FieldSpec in
def Kind.fields : Kind → List FieldSpec
  | .latex | .idOption | .domainOption | .polarDomainOption | .fpsOption | .clickableLabelOption | .nameOption =>
    [needed "value"]
  | .numberInterval => [needed "start", needed "end"]
  | .interval => [optional "min", optional "max", optional "step"]
  | .seed => [needed "seed"]
  | .flags => [needed "flags"]
  | .viewport | .minorSubdivisions | .axisSteps | .axisArrows | .axisLabels | .axes => [optional "x", optional "y"]
  | .axisNumbers => [optional "x", optional "y", optional "polar"]
  | .clickableRule => [needed "id", needed "assignment", needed "expression"]
  | .regressionParameter => [needed "parameter", needed "value"]
  | .colorOption => [optional "value", optional "var"]
  | .labelOption => [optional "value", optional "size", optional "angle", many "flags"]
  | .sliderOption => [optional "value", optional "period", many "flags"]
  | .cdfOption => [optional "value", many "flags"]
  | .regressionOption => [many "parameters", optional "residual_variable", many "flags"]
  | .clickableRulesOption => [many "rules", many "flags"]
  | .displayOption => [flag "flags" .fraction]
  | .binsAlignedOption => [flag "flags" .left]
  | .dotplotOption => [flag "flags" .binnedX]
  | .histogramModeOption | .dragOption => [many "flags"]
  | .pointsOption => [many "flags", optional "opacity", optional "size"]
  | .linesOption => [many "flags", optional "opacity", optional "width"]
  | .fillOption => [many "flags", optional "opacity"]
  | .boxplotOption => [optional "breadth", optional "offset", many "flags"]
  | .imageOption => [optional "width", optional "height", optional "center", optional "angle", optional "opacity"]
  | .column => [many "values", optional "header", many "small_flags", many "option_groups"]
  | .folder => [many "children", optional "title"]
  | .table => [many "columns"]
  | .simulation => [many "rules"]
  | .expression => [optional "expr"]
  | .image => [needed "image_url"]
  | .note => [optional "text"]
  | .item => [needed "affix_group", many "small_flags", many "option_groups"]
  | .program => [many "lines"]
  | .axisSetting => []
  | .config => [⟨"graph_flags", some (.plain (.bool false))⟩, ⟨"output_suffix", some (.str ".dest")⟩]

/-! ## Dump -/

namespace Tree

/-- What a record says of its kind. -/
def heading (kind : Kind) : List (String × Json) :=
  ("type", .str kind.name) :: if kind.keyword = "" then [] else [("key", .str kind.keyword)]

mutual

def dump : Tree → Json
  | .plain j => j
  | .list members => .arr (dumpAll members)
  | .token t => .str t.word
  | .record kind fields => .obj (heading kind ++ dumpFields (kind.fields.map (·.name)) fields)

def dumpAll : List Tree → List Json
  | [] => []
  | t :: rest => dump t :: dumpAll rest

def dumpFields : List String → List Tree → List (String × Json)
  | name :: names, t :: rest =>
    if t.isNull then dumpFields names rest else (name, dump t) :: dumpFields names rest
  | _, _ => []

end

/-- The dump of a program with these lines. -/
def dumpLines (lines : List Tree) : Json := .obj [("lines", .arr (dumpAll lines))]

end Tree

/-! ## The tree of a program -/

def treeOf {α : Type} (f : α → Tree) : Option α → Tree
  | none => .null
  | some a => f a

def treesOf {α : Type} (f : α → Tree) (xs : List α) : Tree := .list (xs.map f)

def Latex.tree (l : Latex) : Tree := .record .latex [.str l.text]

def Interval.tree (i : Interval) : Tree :=
  .record .interval [treeOf Latex.tree i.min, treeOf Latex.tree i.max, treeOf Latex.tree i.step]

def NumberInterval.tree (i : NumberInterval) : Tree := .record .numberInterval [.plain i.start, .plain i.stop]

def Flag.tree : Flag → Tree
  | .word w => .str w.word
  | .given j => .plain j

def SmallFlag.tree (f : SmallFlag) : Tree := .token (.smallFlag f)

def ArrowMode.tree (m : ArrowMode) : Tree := .token (.arrowMode m)

def Visibility.tree (v : Visibility) : Tree := .token (.visibility v)

def Setting.tree (s : Setting) : Tree :=
  .record s.kind <| match s with
    | .seed value => [.plain value]
    | .flags words => [treesOf Flag.tree words]
    | .viewport x y => [treeOf NumberInterval.tree x, treeOf NumberInterval.tree y]
    | .minorSubdivisions x y | .axisSteps x y | .axisLabels x y => [.plain x, .plain y]
    | .axisArrows x y => [treeOf ArrowMode.tree x, treeOf ArrowMode.tree y]
    | .axes x y => [treeOf Visibility.tree x, treeOf Visibility.tree y]
    | .axisNumbers x y polar => [treeOf Visibility.tree x, treeOf Visibility.tree y, treeOf Visibility.tree polar]

def ClickableRule.tree (r : ClickableRule) : Tree :=
  .record .clickableRule [treeOf Tree.str r.id, r.assignment.tree, r.expression.tree]

def RegressionParameter.tree (p : RegressionParameter) : Tree :=
  .record .regressionParameter [p.parameter.tree, .plain p.value]

def OptionGroup.tree (g : OptionGroup) : Tree :=
  let latex := treeOf Latex.tree
  let flags := treesOf Flag.tree
  .record g.kind <| match g with
    | .id value => [.str value]
    | .color value source => [.plain value, latex source]
    | .label value size angle words => [.plain value, latex size, latex angle, flags words]
    | .slider value period words => [treeOf Interval.tree value, latex period, flags words]
    | .domain value | .polarDomain value => [value.tree]
    | .cdf value words => [treeOf Interval.tree value, flags words]
    | .regression parameters residuals words =>
      [treesOf RegressionParameter.tree parameters, latex residuals, flags words]
    | .fps value => [value.tree]
    | .clickableRules rules words => [treesOf ClickableRule.tree rules, flags words]
    | .clickableLabel value | .name value => [.plain value]
    | .display words | .binsAligned words | .histogramMode words | .drag words | .dotplot words => [flags words]
    | .points words opacity size => [flags words, latex opacity, latex size]
    | .lines words opacity width => [flags words, latex opacity, latex width]
    | .fill words opacity => [flags words, latex opacity]
    | .boxplot breadth offset words => [latex breadth, latex offset, flags words]
    | .image width height center angle opacity =>
      [latex width, latex height, latex center, latex angle, latex opacity]

def Column.tree (c : Column) : Tree :=
  .record .column [treesOf Latex.tree c.values, treeOf Latex.tree c.header, treesOf SmallFlag.tree c.smallFlags,
    treesOf OptionGroup.tree c.options]

def Leaf.tree (l : Leaf) : Tree :=
  .record l.kind <| match l with
    | .table columns => [treesOf Column.tree columns]
    | .simulation rules => [treesOf ClickableRule.tree rules]
    | .expression latex => [treeOf Latex.tree latex]
    | .image url => [.plain url]
    | .note text => [.plain text]

def Item.tree {α : Type} (affix : α → Tree) (i : Item α) : Tree :=
  .record .item [affix i.affix, treesOf SmallFlag.tree i.smallFlags, treesOf OptionGroup.tree i.options]

def Folder.tree (f : Folder) : Tree := .record .folder [treesOf (Item.tree Leaf.tree) f.children, .plain f.title]

def Affix.tree : Affix → Tree
  | .leaf l => l.tree
  | .folder f => f.tree

def Line.tree : Line → Tree
  | .setting s => s.tree
  | .item i => i.tree Affix.tree

/-- The dump of a program. -/
def Program.dump (p : Program) : Json := Tree.dumpLines (p.lines.map Line.tree)

end GraphScript
