/-
  GraphScript.Program.Kind — the kinds of record that programs are made of: their names in a dump,
  and the keywords that open them in a script.
-/

namespace GraphScript

inductive Kind where
  | latex | numberInterval | interval
  | seed | flags | viewport | minorSubdivisions | axisSteps | axisArrows | axisLabels | axes | axisNumbers
  | clickableRule | regressionParameter
  | idOption | colorOption | labelOption | sliderOption | domainOption | polarDomainOption | cdfOption
  | regressionOption | fpsOption | clickableRulesOption | clickableLabelOption | nameOption | displayOption
  | binsAlignedOption | histogramModeOption | dragOption | pointsOption | linesOption | fillOption | boxplotOption
  | dotplotOption | imageOption
  | column
  | folder | table | simulation | expression | image | note
  | item | program
  /-- What settings of axes have in common; a record of no more than that is never valid. -/
  | axisSetting
  /-- A configuration, which is no part of a program. -/
  | config
  deriving DecidableEq, Repr

namespace Kind

def name : Kind → String
  | .latex => "Latex"
  | .numberInterval => "NumberInterval"
  | .interval => "Interval"
  | .seed => "SeedSetting"
  | .flags => "FlagsSetting"
  | .viewport => "ViewportSetting"
  | .minorSubdivisions => "MinorSubdivisionsSetting"
  | .axisSteps => "AxisStepsSetting"
  | .axisArrows => "AxisArrowsSetting"
  | .axisLabels => "AxisLabelsSetting"
  | .axes => "AxesSetting"
  | .axisNumbers => "AxisNumbersSetting"
  | .clickableRule => "ClickableRule"
  | .regressionParameter => "RegressionParameter"
  | .idOption => "IdOption"
  | .colorOption => "ColorOption"
  | .labelOption => "LabelOption"
  | .sliderOption => "SliderOption"
  | .domainOption => "DomainOption"
  | .polarDomainOption => "PolarDomainOption"
  | .cdfOption => "CdfOption"
  | .regressionOption => "RegressionOption"
  | .fpsOption => "FpsOption"
  | .clickableRulesOption => "ClickableRulesOption"
  | .clickableLabelOption => "ClickableLabelOption"
  | .nameOption => "NameOption"
  | .displayOption => "DisplayOption"
  | .binsAlignedOption => "BinsAlignedOption"
  | .histogramModeOption => "HistogramModeOption"
  | .dragOption => "DragOption"
  | .pointsOption => "PointsOption"
  | .linesOption => "LinesOption"
  | .fillOption => "FillOption"
  | .boxplotOption => "BoxplotOption"
  | .dotplotOption => "DotplotOption"
  | .imageOption => "ImageOption"
  | .column => "ColumnLine"
  | .folder => "FolderAffix"
  | .table => "TableAffix"
  | .simulation => "SimulationAffix"
  | .expression => "ExprAffix"
  | .image => "ImageAffix"
  | .note => "NoteAffix"
  | .item => "ItemLine"
  | .program => "Program"
  | .axisSetting => "_AxisSetting"
  | .config => "ConverterConfig"

/-- Empty for kinds that have no keyword. -/
def keyword : Kind → String
  | .seed => "seed"
  | .flags => "flags"
  | .viewport => "viewport"
  | .minorSubdivisions => "minor-subdivisions"
  | .axisSteps => "axis steps"
  | .axisArrows => "axis arrows"
  | .axisLabels => "axis labels"
  | .axes => "axes"
  | .axisNumbers => "axis numbers"
  | .idOption => "id"
  | .colorOption => "color"
  | .labelOption => "label"
  | .sliderOption => "slider"
  | .domainOption => "domain"
  | .polarDomainOption => "polar domain"
  | .cdfOption => "cdf"
  | .regressionOption => "regression"
  | .fpsOption => "fps"
  | .clickableRulesOption => "clickable rules"
  | .clickableLabelOption => "clickable label"
  | .nameOption => "name"
  | .displayOption => "display"
  | .binsAlignedOption => "bins aligned"
  | .histogramModeOption => "histogram mode"
  | .dragOption => "drag"
  | .pointsOption => "points"
  | .linesOption => "lines"
  | .fillOption => "fill"
  | .boxplotOption => "boxplot"
  | .dotplotOption => "dotplot"
  | .imageOption => "image"
  | .folder => "folder"
  | .table => "table"
  | .simulation => "simulation"
  | .expression => "expr"
  | .image => "image"
  | .note => "note"
  | .latex | .numberInterval | .interval | .clickableRule | .regressionParameter | .column | .item | .program
  | .axisSetting | .config => ""

def all : List Kind := [
  .latex, .numberInterval, .interval,
  .seed, .flags, .viewport, .minorSubdivisions, .axisSteps, .axisArrows, .axisLabels, .axes, .axisNumbers,
  .clickableRule, .regressionParameter,
  .idOption, .colorOption, .labelOption, .sliderOption, .domainOption, .polarDomainOption, .cdfOption,
  .regressionOption, .fpsOption, .clickableRulesOption, .clickableLabelOption, .nameOption, .displayOption,
  .binsAlignedOption, .histogramModeOption, .dragOption, .pointsOption, .linesOption, .fillOption, .boxplotOption,
  .dotplotOption, .imageOption,
  .column,
  .folder, .table, .simulation, .expression, .image, .note,
  .item, .program, .axisSetting, .config]

def ofName? (s : String) : Option Kind := all.find? (·.name == s)

end Kind

end GraphScript
