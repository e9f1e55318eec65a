/-
  GraphScript.Proofs.State.Alike — what the translation of an item depends on.

  A translation looks at a value in one of few ways: as it stands, as an expression, as an expression
  if it is truthy, as an object or as a list. Two values are alike if they look the same that way.
  Objects are alike if the values of the keys that are read are; other keys, and the order of keys,
  do not count (`Fields.Alike`, `ItemKind.Alike`). The fault of a translation is the same as well.

  - `Item.ofJson_alike`, `Column.ofJson_alike`, `ClickableRule.ofJson_alike`: what is alike is
    translated alike.
-/
import GraphScript.Proofs.State.Readable

namespace GraphScript

open Faults

/-! ## Ways to look at a value -/

namespace Json

/-- Alike as expressions that may be missing. -/
structure ExpressionAlike (v w : Json) : Prop where
  isNull : w.isNull = v.isNull
  latex : w.latex = v.latex

/-- Alike as expressions that are missing where they are not truthy. -/
structure TruthyAlike (v w : Json) : Prop where
  truthy : w.truthy = v.truthy
  latex : v.truthy = true → w.latex = v.latex

/-- Some keys have the same values in both, others have expressions that are alike. -/
structure Fields.Alike (whole expressions : List String) (fs gs : Fields) : Prop where
  value : ∀ key ∈ whole, gs.get key = fs.get key
  expression : ∀ key ∈ expressions, ExpressionAlike (fs.get key) (gs.get key)

/-- The same, or objects whose fields are alike. -/
def ObjectAlike (fields : Fields → Fields → Prop) (v w : Json) : Prop :=
  w = v ∨ ∃ fs gs, v = .obj fs ∧ w = .obj gs ∧ fields fs gs

/-- The same, or lists whose members are alike one by one. -/
def ListAlike (member : Json → Json → Prop) (v w : Json) : Prop :=
  w = v ∨ ∃ vs ws, v = .arr vs ∧ w = .arr ws ∧ List.Forall₂ member vs ws

section

variable {α β : Type} {v w : Json}

theorem mapM_alike {member : Json → Json → Prop} {f : Json → Except Fault α} (hf : ∀ v w, member v w → f w = f v)
    {vs ws : List Json} (h : List.Forall₂ member vs ws) : ws.mapM f = vs.mapM f := by
  induction h with
  | nil => rfl
  | cons hvw _ ih => rw [List.mapM_cons, List.mapM_cons, hf _ _ hvw, ih]

namespace ObjectAlike

variable {fields : Fields → Fields → Prop} (h : ObjectAlike fields v w)

include h

theorem isNull : w.isNull = v.isNull := by
  rcases h with rfl | ⟨fs, gs, rfl, rfl, -⟩ <;> rfl

theorem fields_bind {f : Fields → Except Fault α} (hf : ∀ fs gs, fields fs gs → f gs = f fs) :
    (w.fields >>= f) = (v.fields >>= f) := by
  rcases h with rfl | ⟨fs, gs, rfl, rfl, hfg⟩
  · rfl
  · exact hf fs gs hfg

/-- Both fail as nested objects, or the fields of both look the same in every way that fields that are alike do. -/
theorem nested_cases : (∃ e, v.nested = .error e ∧ w.nested = .error e) ∨
    ∃ fs gs, v.nested = .ok fs ∧ w.nested = .ok gs ∧
      ∀ {γ : Type} (view : Fields → γ), (∀ fs gs, fields fs gs → view gs = view fs) → view gs = view fs := by
  have hobject : ∀ fs : Fields, (Json.obj fs).nested = .ok fs := fun fs => nested_eq_ok.mpr ⟨fun _ => ⟨fs, rfl⟩, rfl⟩
  rcases h with rfl | ⟨fs, gs, rfl, rfl, hfg⟩
  · cases hn : w.nested with
    | error e => exact .inl ⟨e, rfl, rfl⟩
    | ok fs => exact .inr ⟨fs, fs, rfl, rfl, fun _ _ => rfl⟩
  · exact .inr ⟨fs, gs, hobject fs, hobject gs, fun _ hview => hview fs gs hfg⟩

theorem nested_bind {f : Fields → Except Fault α} (hf : ∀ fs gs, fields fs gs → f gs = f fs) :
    (w.nested >>= f) = (v.nested >>= f) := by
  rcases h.nested_cases with ⟨e, hv, hw⟩ | ⟨fs, gs, hv, hw, hview⟩
  · rw [hv, hw]
  · rw [hv, hw]
    exact hview f hf

end ObjectAlike

namespace ListAlike

variable {member : Json → Json → Prop} (h : ListAlike member v w)

include h

theorem isNull : w.isNull = v.isNull := by
  rcases h with rfl | ⟨vs, ws, rfl, rfl, -⟩ <;> rfl

theorem members_bind {f : Json → Except Fault α} (hf : ∀ v w, member v w → f w = f v)
    (k : List α → Except Fault β) :
    (w.members >>= fun ms => ms.mapM f >>= k) = (v.members >>= fun ms => ms.mapM f >>= k) := by
  rcases h with rfl | ⟨vs, ws, rfl, rfl, hvw⟩
  · rfl
  · show (ws.mapM f >>= k) = (vs.mapM f >>= k)
    rw [mapM_alike hf hvw]

theorem membersIfAny_bind {f : Json → Except Fault α} (hf : ∀ v w, member v w → f w = f v)
    (k : List α → Except Fault β) :
    (w.membersIfAny >>= fun ms => ms.mapM f >>= k) = (v.membersIfAny >>= fun ms => ms.mapM f >>= k) := by
  have hlist : ∀ vs : List Json, (Json.arr vs).membersIfAny = .ok vs := by
    intro vs
    cases vs <;> rfl
  rcases h with rfl | ⟨vs, ws, rfl, rfl, hvw⟩
  · rfl
  · rw [hlist, hlist, ok_bind, ok_bind, mapM_alike hf hvw]

end ListAlike

end

/-! ## Fields -/

namespace Fields.Alike

variable {whole expressions : List String} {fs gs : Fields} (h : Alike whole expressions fs gs)

include h

theorem mono {whole' expressions' : List String} (hw : whole' ⊆ whole) (he : expressions' ⊆ expressions) :
    Alike whole' expressions' fs gs :=
  ⟨fun key hk => h.value key (hw hk), fun key hk => h.expression key (he hk)⟩

theorem truthy (key : String) (hk : key ∈ whole) : gs.truthy key = fs.truthy key := by
  rw [Fields.truthy, Fields.truthy, h.value key hk]

theorem has (key : String) (hk : key ∈ whole ++ expressions) : gs.has key = fs.has key := by
  rw [Fields.has, Fields.has]
  rcases List.mem_append.mp hk with hk | hk
  · rw [h.value key hk]
  · rw [(h.expression key hk).isNull]

theorem latex (key : String) (hk : key ∈ expressions) : gs.latex key = fs.latex key := by
  have hv := h.expression key hk
  rw [Fields.latex, Fields.latex, present, present, hv.isNull, hv.latex]

theorem visibilityFlag (key : String) (hk : key ∈ whole) : gs.visibilityFlag key = fs.visibilityFlag key := by
  rw [Fields.visibilityFlag, Fields.visibilityFlag, h.has key (List.mem_append_left _ hk), h.truthy key hk]

end Fields.Alike

/-- The keys of an interval. -/
def boundKeys : List String := ["min", "max", "step"]

theorem Fields.Alike.interval {fs gs : Fields} (h : Alike [] boundKeys fs gs) : gs.interval = fs.interval := by
  simp (disch := decide) only [Fields.interval, h.latex]

/-! ## Styling -/

/-- The keys of styling with values that are read as they stand. -/
def stylingWhole : List String := ["points", "pointStyle", "lines", "lineStyle", "fill", "color", "dragMode"]

def stylingExpressions : List String :=
  ["pointOpacity", "pointSize", "lineOpacity", "lineWidth", "fillOpacity", "colorLatex"]

theorem Fields.Alike.styling {fs gs : Fields} (h : Alike stylingWhole stylingExpressions fs gs) :
    gs.styling = fs.styling := by
  have hpoints : gs.pointFlags = fs.pointFlags := by
    rw [pointFlags, pointFlags, h.visibilityFlag "points" (by decide), h.value "pointStyle" (by decide)]
  have hlines : gs.lineFlags = fs.lineFlags := by
    rw [lineFlags, lineFlags, h.visibilityFlag "lines" (by decide), h.value "lineStyle" (by decide)]
  have hp : gs.points = fs.points := by
    simp (disch := decide) only [points, hpoints, h.has, h.latex]
  have hl : gs.lines = fs.lines := by
    simp (disch := decide) only [lines, hlines, h.has, h.latex]
  have hf : gs.fill = fs.fill := by
    simp (disch := decide) only [fill, h.visibilityFlag, h.has, h.latex]
  have hc : gs.color = fs.color := by
    simp (disch := decide) only [color, h.value, h.has, h.latex]
  have hd : gs.drag = fs.drag := by
    simp (disch := decide) only [drag, h.value]
  rw [Fields.styling, Fields.styling, hp, hl, hf, hc, hd]

end Json

open Json

/-! ## Columns and rules -/

structure ColumnAlike (fs gs : Json.Fields) : Prop where
  own : Fields.Alike ("hidden" :: stylingWhole) ("latex" :: stylingExpressions) fs gs
  values : ListAlike ExpressionAlike (fs.get "values") (gs.get "values")

theorem Column.ofJson_alike {v w : Json} (h : ObjectAlike ColumnAlike v w) : Column.ofJson w = Column.ofJson v := by
  refine h.fields_bind fun fs gs h => ?_
  have hs := (h.own.mono (List.subset_cons_self ..) (List.subset_cons_self ..)).styling
  simp (disch := decide) only [hs, h.own.latex, h.own.truthy]
  exact h.values.membersIfAny_bind (fun _ _ hvw => hvw.latex) _

structure RuleAlike (fs gs : Json.Fields) : Prop where
  id : gs.get "id" = fs.get "id"
  side : ∀ key ∈ ["assignment", "expression"], TruthyAlike (fs.get key) (gs.get key)

theorem ClickableRule.ofJson_alike {v w : Json} (h : ObjectAlike RuleAlike v w) :
    ClickableRule.ofJson w = ClickableRule.ofJson v := by
  refine h.fields_bind fun fs gs h => ?_
  have hside : ∀ key ∈ ["assignment", "expression"], (if gs.truthy key then (gs.get key).latex else .ok ⟨""⟩) =
      (if fs.truthy key then (fs.get key).latex else .ok ⟨""⟩ : Except Fault Latex) := by
    intro key hk
    rw [Fields.truthy, Fields.truthy, (h.side key hk).truthy]
    split
    · rename_i ht
      exact (h.side key hk).latex ht
    · rfl
  have hid : gs.has "id" = fs.has "id" := by rw [Fields.has, Fields.has, h.id]
  simp (disch := decide) only [hid, h.id, hside]

/-! ## Expressions -/

structure ClickableAlike (fs gs : Json.Fields) : Prop where
  own : Fields.Alike ["description", "enabled"] [] fs gs
  rules : ListAlike (ObjectAlike RuleAlike) (fs.get "rules") (gs.get "rules")

def vizWhole : List String := ["binAlignment", "histogramMode", "dotplotXMode", "showBoxplotOutliers", "alignedAxis"]

/-- Alike in all that an expression has beside its styling. -/
structure ExpressionItemAlike (fs gs : Json.Fields) : Prop where
  own : Fields.Alike ["regressionParameters", "isLogModeRegression", "editableLabelMode", "showLabel",
    "interactiveLabel", "suppressTextOutline", "label", "displayEvaluationAsFraction"]
    ["latex", "labelSize", "labelAngle"] fs gs
  clickableInfo : ObjectAlike ClickableAlike (fs.get "clickableInfo") (gs.get "clickableInfo")
  residualVariable : TruthyAlike (fs.get "residualVariable") (gs.get "residualVariable")
  slider : ObjectAlike (Fields.Alike ["loopMode", "hardMin", "hardMax", "playDirection"]
    ("animationPeriod" :: boundKeys)) (fs.get "slider") (gs.get "slider")
  polarDomain : ObjectAlike (Fields.Alike [] boundKeys) (fs.get "polarDomain") (gs.get "polarDomain")
  domain : ObjectAlike (Fields.Alike [] boundKeys) (fs.get "domain") (gs.get "domain")
  cdf : ObjectAlike (Fields.Alike ["show"] boundKeys) (fs.get "cdf") (gs.get "cdf")
  vizProps : ObjectAlike (Fields.Alike vizWhole ["breadth", "axisOffset"]) (fs.get "vizProps") (gs.get "vizProps")

/-- A group of bounds is there if its object is. -/
theorem bounds_alike {fs gs : Json.Fields} {key : String}
    (h : ObjectAlike (Fields.Alike [] boundKeys) (fs.get key) (gs.get key)) (group : Interval → OptionGroup) :
    (if gs.has key then do return some (group (← (← (gs.get key).fields).interval)) else .ok none) =
      (if fs.has key then do return some (group (← (← (fs.get key).fields).interval)) else .ok none :
        Except Fault (Option OptionGroup)) := by
  rw [Fields.has, Fields.has, h.isNull]
  have hbounds := h.fields_bind (f := fun fs => do return some (group (← fs.interval))) fun fs gs h => by
    rw [h.interval]
  rw [hbounds]

theorem ClickableAlike.clickableLabel {fs gs : Json.Fields} (h : ClickableAlike fs gs) :
    gs.clickableLabel = fs.clickableLabel := by
  simp (disch := decide) only [Fields.clickableLabel, h.own.has, h.own.value]

theorem ClickableAlike.clickableRules {fs gs : Json.Fields} (h : ClickableAlike fs gs) :
    gs.clickableRules = fs.clickableRules := by
  have hr : gs.has "rules" = fs.has "rules" := by rw [Fields.has, Fields.has, h.rules.isNull]
  have hm := h.rules.members_bind (fun _ _ => ClickableRule.ofJson_alike) (fun rules => .ok (some
    (OptionGroup.clickableRules rules (flagIf (!fs.truthy "enabled") .disabled))))
  rw [Fields.clickableRules, Fields.clickableRules, hr, h.own.truthy "enabled" (by decide)]
  exact congrArg (ite _ · _) hm

theorem boxplot_alike {fs gs : Json.Fields} (h : Fields.Alike vizWhole ["breadth", "axisOffset"] fs gs) :
    gs.boxplot = fs.boxplot := by
  simp (disch := decide) only [Fields.boxplot, h.value, h.truthy, h.has, h.latex]

namespace ExpressionItemAlike

variable {fs gs : Json.Fields} (h : ExpressionItemAlike fs gs)

include h

theorem regression : gs.regression = fs.regression := by
  have hr : gs.truthy "residualVariable" = fs.truthy "residualVariable" := h.residualVariable.truthy
  simp (disch := decide) only [Fields.regression, h.own.truthy, h.own.value, hr]
  by_cases ht : fs.truthy "residualVariable" = true
  · rw [h.residualVariable.latex ht]
  · simp only [ht, Bool.false_eq_true, if_false]

theorem slider_eq : gs.slider = fs.slider := by
  refine h.slider.nested_bind fun fs gs h => ?_
  have hi := (h.mono (List.nil_subset _) (List.subset_cons_self ..)).interval
  simp (disch := decide) only [h.value, h.truthy, h.latex, hi]

theorem cdf_eq : gs.cdf = fs.cdf := by
  refine h.cdf.nested_bind fun fs gs h => ?_
  have hi := (h.mono (List.nil_subset _) (List.Subset.refl _)).interval
  simp (disch := decide) only [h.truthy, hi]

theorem label : gs.label = fs.label := by
  simp (disch := decide) only [Fields.label, h.own.value, h.own.truthy, h.own.latex]

theorem fraction : gs.fraction = fs.fraction := by
  simp (disch := decide) only [Fields.fraction, h.own.truthy]

theorem expressionGroups : gs.expressionGroups = fs.expressionGroups := by
  have hpolar : gs.polarDomain = fs.polarDomain := bounds_alike h.polarDomain .polarDomain
  have hdomain : gs.domain = fs.domain := bounds_alike h.domain .domain
  simp only [Fields.expressionGroups, h.regression, h.slider_eq, hpolar, hdomain, h.cdf_eq, h.label, h.fraction]
  rcases h.clickableInfo.nested_cases with ⟨e, hi, hi'⟩ | ⟨info, info', hi, hi', hinfo⟩
  · rw [hi, hi']
    rfl
  · have hlabel := hinfo (·.clickableLabel) fun _ _ => ClickableAlike.clickableLabel
    have hrules := hinfo (·.clickableRules) fun _ _ => ClickableAlike.clickableRules
    simp only [hi, hi', ok_bind, hlabel, hrules]
    rcases h.vizProps.nested_cases with ⟨e, hv, hv'⟩ | ⟨viz, viz', hv, hv', hviz⟩
    · simp only [hv, hv', error_bind]
    · have hbins := hviz (·.binsAligned) fun fs gs h => by
        simp (disch := decide) only [Fields.binsAligned, h.value]
      have hmode := hviz (·.histogramMode) fun fs gs h => by
        simp (disch := decide) only [Fields.histogramMode, h.value]
      have hdots := hviz (·.dotplot) fun fs gs h => by
        simp (disch := decide) only [Fields.dotplot, h.value]
      have hboxplot := hviz (·.boxplot) fun _ _ => boxplot_alike
      simp only [hv, hv', ok_bind, hbins, hmode, hdots, hboxplot]

end ExpressionItemAlike

/-! ## Items -/

structure SimulationAlike (fs gs : Json.Fields) : Prop where
  own : Fields.Alike ["isPlaying"] ["fps"] fs gs
  clickableInfo : ObjectAlike (fun fs gs => ListAlike (ObjectAlike RuleAlike) (fs.get "rules") (gs.get "rules"))
    (fs.get "clickableInfo") (gs.get "clickableInfo")

namespace ItemKind

/-- Alike in all that only items of this kind have. -/
def Alike (fs gs : Json.Fields) : ItemKind → Prop
  | .folder => Fields.Alike ["title", "collapsed"] [] fs gs
  | .table => ListAlike (ObjectAlike ColumnAlike) (fs.get "columns") (gs.get "columns")
  | .simulation => SimulationAlike fs gs
  | .expression => ExpressionItemAlike fs gs
  | .image => Fields.Alike ["image_url", "foreground", "draggable", "name"]
    ["width", "height", "center", "angle", "opacity"] fs gs
  | .text => Fields.Alike ["text"] [] fs gs

variable {fs gs : Json.Fields} {kind : ItemKind} (h : kind.Alike fs gs)

include h

theorem affix_alike : kind.affix gs = kind.affix fs := by
  cases kind with
  | folder | text => simp (disch := decide) only [affix, Fields.Alike.value h]
  | image => simp (disch := decide) only [affix, Fields.Alike.value h, Fields.Alike.truthy h]
  | table => exact ListAlike.membersIfAny_bind h (fun _ _ => Column.ofJson_alike) _
  | expression => simp (disch := decide) only [affix, h.own.latex]
  | simulation =>
    refine h.clickableInfo.nested_bind fun fs gs h => ?_
    exact ListAlike.membersIfAny_bind h (fun _ _ => ClickableRule.ofJson_alike) _

theorem smallFlags_alike : kind.smallFlags gs = kind.smallFlags fs := by
  cases kind with
  | folder | image => simp (disch := decide) only [smallFlags, Fields.Alike.truthy h]
  | simulation => simp (disch := decide) only [smallFlags, h.own.truthy]
  | table | expression | text => rfl

theorem groups_alike : kind.groups gs = kind.groups fs := by
  cases kind with
  | image =>
    simp (disch := decide) only [groups, geometry, Fields.Alike.value h, Fields.Alike.has h, Fields.Alike.latex h]
  | simulation => simp (disch := decide) only [groups, h.own.latex]
  | expression => exact h.expressionGroups
  | folder | table | text => rfl

end ItemKind

structure ItemAlike (fs gs : Json.Fields) : Prop where
  id : gs.lookup "id" = fs.lookup "id"
  shared : Fields.Alike ("type" :: "secret" :: "hidden" :: stylingWhole) stylingExpressions fs gs
  own : ∀ kind, ItemKind.ofJson? (fs.get "type") = some kind → kind.Alike fs gs

theorem Item.ofJson_alike {v w : Json} (h : ObjectAlike ItemAlike v w) : Item.ofJson w = Item.ofJson v := by
  rcases h with rfl | ⟨fs, gs, rfl, rfl, h⟩
  · rfl
  · have hid : (Json.obj gs).need "id" = (Json.obj fs).need "id" := by rw [need, need, h.id]
    have hs := (h.shared.mono (List.subset_append_right ["type", "secret", "hidden"] _) (List.Subset.refl _)).styling
    simp (disch := decide) only [ofJson, fields, ok_bind, hid, hs, h.shared.value, h.shared.truthy]
    cases hk : ItemKind.ofJson? (Fields.get fs "type") with
    | none => rfl
    | some kind =>
      have hown := h.own kind hk
      simp only [ItemKind.affix_alike hown, ItemKind.groups_alike hown, ItemKind.smallFlags_alike hown]

end GraphScript
