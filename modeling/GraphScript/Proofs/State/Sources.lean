/-
  GraphScript.Proofs.State.Sources — where the option groups of an item come from.

  A group is there for a reason: its fields hold something that it says. `Fields.Gives` has one rule
  for each kind of group. The rule tells which values the parts of the group are read from, and what
  the test of its reader comes to once they are read. What holds of all translated groups is shown
  by going through these rules.

  The readers of an item ask for its groups in a fixed order, and each of them gives one group or
  none.

  - `styling_given`, `ItemKind.groups_given`: groups in the order of their kinds.
-/
import GraphScript.Proofs.State.Readable

namespace GraphScript

open Faults Json

/-! ## Groups and their fields -/

namespace Json.Fields

/-- The fields give a group of this kind. -/
inductive Gives (fs : Fields) : Kind → OptionGroup → Prop
  | points {opacity size : Option Latex} :
    fs.latex "pointOpacity" = .ok opacity → fs.latex "pointSize" = .ok size →
    ¬(fs.pointFlags = [] ∧ opacity = none ∧ size = none) →
    Gives fs .pointsOption (.points fs.pointFlags opacity size)
  | lines {opacity width : Option Latex} :
    fs.latex "lineOpacity" = .ok opacity → fs.latex "lineWidth" = .ok width →
    ¬(fs.lineFlags = [] ∧ opacity = none ∧ width = none) →
    Gives fs .linesOption (.lines fs.lineFlags opacity width)
  | fill {opacity : Option Latex} :
    fs.latex "fillOpacity" = .ok opacity → ¬(fs.visibilityFlag "fill" = [] ∧ opacity = none) →
    Gives fs .fillOption (.fill (fs.visibilityFlag "fill") opacity)
  | color {source : Option Latex} :
    fs.latex "colorLatex" = .ok source → ¬(fs.get "color" = .null ∧ source = none) →
    Gives fs .colorOption (.color (fs.get "color") source)
  | drag {w : FlagWord} : (fs.get "dragMode").lookupIn dragModes = .ok (some w) → Gives fs .dragOption (.drag [.word w])
  | fps {rate : Latex} : fs.latex "fps" = .ok (some rate) → Gives fs .fpsOption (.fps rate)
  | name : fs.get "name" ≠ .null → Gives fs .nameOption (.name (fs.get "name"))
  | image {width height center angle opacity : Option Latex} :
    fs.latex "width" = .ok width → fs.latex "height" = .ok height → fs.latex "center" = .ok center →
    fs.latex "angle" = .ok angle → fs.latex "opacity" = .ok opacity →
    (∃ value ∈ [width, height, center, angle, opacity], value ≠ none) →
    Gives fs .imageOption (.image width height center angle opacity)
  | clickableLabel :
    (fs.get "clickableInfo").valueOf "description" ≠ .null →
    Gives fs .clickableLabelOption (.clickableLabel ((fs.get "clickableInfo").valueOf "description"))
  | clickableRules {members : List Json} {rules : List ClickableRule} :
    ((fs.get "clickableInfo").valueOf "rules").members = .ok members → rulesOf members = .ok rules →
    Gives fs .clickableRulesOption
      (.clickableRules rules (flagIf (!((fs.get "clickableInfo").valueOf "enabled").truthy) .disabled))
  | regression {residuals : Option Latex} :
    (∀ l ∈ residuals, (fs.get "residualVariable").latex = .ok l) →
    (residuals = none ↔ fs.truthy "residualVariable" = false) →
    ¬((fs.get "regressionParameters").entries = [] ∧ residuals = none ∧ fs.truthy "isLogModeRegression" = false) →
    Gives fs .regressionOption (.regression
      ((fs.get "regressionParameters").entries.map fun (name, value) => ⟨⟨name⟩, value⟩) residuals
      (flagIf (fs.truthy "isLogModeRegression") .logMode))
  | slider {mode : Option FlagWord} {bounds : Interval} {period : Option Latex} {flags : List Flag} :
    ((fs.get "slider").valueOf "loopMode").lookupIn loopModes = .ok mode →
    (fs.get "slider").entries.interval = .ok bounds →
    (fs.get "slider").entries.latex "animationPeriod" = .ok period →
    flags = flagIf ((fs.get "slider").valueOf "hardMin").truthy .hardMin
      ++ flagIf ((fs.get "slider").valueOf "hardMax").truthy .hardMax ++ (mode.map Flag.word).toList
      ++ flagIf (((fs.get "slider").valueOf "playDirection").equals (.int (-1))) .left →
    ¬(flags = [] ∧ bounds.bounds? = none ∧ period = none) →
    Gives fs .sliderOption (.slider bounds.bounds? period flags)
  | polarDomain {bounds : Interval} :
    (fs.get "polarDomain").IsObject → (fs.get "polarDomain").entries.interval = .ok bounds →
    Gives fs .polarDomainOption (.polarDomain bounds)
  | domain {bounds : Interval} :
    (fs.get "domain").IsObject → (fs.get "domain").entries.interval = .ok bounds →
    Gives fs .domainOption (.domain bounds)
  | cdf {bounds : Interval} {flags : List Flag} :
    (fs.get "cdf").entries.interval = .ok bounds → flags = flagIf ((fs.get "cdf").valueOf "show").truthy .shown →
    ¬(flags = [] ∧ bounds.bounds? = none) → Gives fs .cdfOption (.cdf bounds.bounds? flags)
  | label {editable : Option FlagWord} {size angle : Option Latex} {flags : List Flag} :
    (fs.get "editableLabelMode").lookupIn editableModes = .ok editable → fs.latex "labelSize" = .ok size →
    fs.latex "labelAngle" = .ok angle →
    flags = flagIf (fs.truthy "showLabel") .shown ++ (editable.map Flag.word).toList
      ++ flagIf (fs.truthy "interactiveLabel") .showOnHover ++ flagIf (fs.truthy "suppressTextOutline") .noOutline →
    ¬(flags = [] ∧ (fs.get "label").orNull = .null ∧ size = none ∧ angle = none) →
    Gives fs .labelOption (.label (fs.get "label").orNull size angle flags)
  | display : fs.truthy "displayEvaluationAsFraction" = true → Gives fs .displayOption (.display [.word .fraction])
  | binsAligned :
    ((fs.get "vizProps").valueOf "binAlignment").is "left" = true →
    Gives fs .binsAlignedOption (.binsAligned [.word .left])
  | histogramMode :
    (fs.get "vizProps").valueOf "histogramMode" ≠ .null →
    ((fs.get "vizProps").valueOf "histogramMode").is "count" = false →
    Gives fs .histogramModeOption (.histogramMode [.given ((fs.get "vizProps").valueOf "histogramMode")])
  | dotplot :
    ((fs.get "vizProps").valueOf "dotplotXMode").is "exact" = true → Gives fs .dotplotOption (.dotplot [.word .binnedX])
  | boxplot {breadth offset : Option Latex} {flags : List Flag} :
    (fs.get "vizProps").entries.latex "breadth" = .ok breadth →
    (fs.get "vizProps").entries.latex "axisOffset" = .ok offset →
    flags = flagIf ((fs.get "vizProps").valueOf "showBoxplotOutliers").truthy .includeOutliers
      ++ flagIf (((fs.get "vizProps").valueOf "alignedAxis").is "y") .alignedToY →
    ¬(flags = [] ∧ breadth = none ∧ offset = none) → Gives fs .boxplotOption (.boxplot breadth offset flags)

/-- The group, if it is there, is one of this kind that the fields give. -/
def MayGive (fs : Fields) (k : Kind) (o : Option OptionGroup) : Prop := ∀ g ∈ o, fs.Gives k g

variable {fs : Fields} {k : Kind} {g : OptionGroup} {o : Option OptionGroup}

theorem Gives.kind_eq (h : fs.Gives k g) : g.kind = k := by
  cases h <;> rfl

@[simp] theorem mayGive_none : fs.MayGive k none := nofun

@[simp] theorem mayGive_some : fs.MayGive k (some g) ↔ fs.Gives k g := by simp [MayGive]

/-! ## Presence -/

/-- An expression is missing just where its value is null. -/
theorem latex_eq_none {key : String} {value : Option Latex} (h : fs.latex key = .ok value) :
    value = none ↔ fs.has key = false := by
  rw [← Bool.not_eq_true, has_iff, not_not]
  rcases present_eq_ok.mp h with ⟨hn, rfl⟩ | ⟨hn, l, -, rfl⟩ <;> simp [hn]

theorem entries_eq_nil {j : Json} (h : FalsyOr IsObject j) : j.entries = [] ↔ j.truthy = false := by
  by_cases ht : j.truthy = true
  · obtain ⟨fs, rfl⟩ := h ht
    cases fs with
    | nil => cases ht
    | cons _ _ => simp [entries, ht]
  · cases j with
    | obj fs =>
      cases fs with
      | nil => simp [entries, ht]
      | cons _ _ => exact absurd rfl ht
    | _ => simp [entries, ht]

/-- A test for what is there, in terms of what was read. -/
theorem not_absent {key key' : String} {value value' : Option Latex} {flags : List Flag}
    (h : fs.latex key = .ok value) (h' : fs.latex key' = .ok value')
    (habsent : ¬(flags.isEmpty && !fs.has key && !fs.has key') = true) :
    ¬(flags = [] ∧ value = none ∧ value' = none) := by
  intro hnone
  rw [latex_eq_none h, latex_eq_none h'] at hnone
  exact habsent (by simp [hnone])

/-- A reader that gives a group unless there is nothing to say. -/
theorem mayGive_unless {condition : Bool} {x : Except Fault (Option OptionGroup)}
    (hx : ¬condition = true → Ensures (fs.MayGive k) x) :
    Ensures (fs.MayGive k) (if condition then .ok none else x) := by
  intro o h
  split at h
  · cases h
    exact mayGive_none
  · exact hx ‹_› o h

/-- What is there of the groups that may be given is given. -/
theorem gives_of_mem {kinds : List Kind} {os : List (Option OptionGroup)} (h : List.Forall₂ fs.MayGive kinds os) :
    ∀ g ∈ os.filterMap id, ∃ k ∈ kinds, fs.Gives k g := by
  intro g hg
  obtain ⟨o, ho, he⟩ := List.mem_filterMap.mp hg
  obtain ⟨k, hk, hgives⟩ := exists_partner h o ho
  exact ⟨k, hk, hgives g he⟩

/-! ## Styling -/

theorem points_given : Ensures (fs.MayGive .pointsOption) fs.points := by
  refine mayGive_unless fun habsent o h => ?_
  simp only [bind_eq_ok, pure_eq, Except.ok.injEq] at h
  obtain ⟨opacity, hopacity, size, hsize, rfl⟩ := h
  exact mayGive_some.mpr (.points hopacity hsize (not_absent hopacity hsize habsent))

theorem lines_given : Ensures (fs.MayGive .linesOption) fs.lines := by
  refine mayGive_unless fun habsent o h => ?_
  simp only [bind_eq_ok, pure_eq, Except.ok.injEq] at h
  obtain ⟨opacity, hopacity, width, hwidth, rfl⟩ := h
  exact mayGive_some.mpr (.lines hopacity hwidth (not_absent hopacity hwidth habsent))

theorem fill_given : Ensures (fs.MayGive .fillOption) fs.fill := by
  refine mayGive_unless fun habsent o h => ?_
  simp only [bind_eq_ok, pure_eq, Except.ok.injEq] at h
  obtain ⟨opacity, hopacity, rfl⟩ := h
  refine mayGive_some.mpr (.fill hopacity fun hnone => habsent ?_)
  have hflags : fs.has "fill" = false := by
    have hempty := hnone.1
    unfold visibilityFlag at hempty
    split at hempty
    · cases hempty
    · rename_i hfill
      exact Bool.not_eq_true _ ▸ hfill
  rw [hflags, (latex_eq_none hopacity).mp hnone.2]
  rfl

theorem color_given : Ensures (fs.MayGive .colorOption) fs.color := by
  refine mayGive_unless fun habsent o h => ?_
  simp only [bind_eq_ok, pure_eq, Except.ok.injEq] at h
  obtain ⟨source, hsource, rfl⟩ := h
  refine mayGive_some.mpr (.color hsource fun hnone => habsent ?_)
  rw [(latex_eq_none hsource).mp hnone.2, Bool.and_eq_true, not_has]
  exact ⟨hnone.1, rfl⟩

theorem drag_given : Ensures (fs.MayGive .dragOption) fs.drag := by
  intro o h
  simp only [drag, bind_eq_ok, pure_eq, Except.ok.injEq] at h
  obtain ⟨mode, hmode, rfl⟩ := h
  cases mode with
  | none => exact mayGive_none
  | some w => exact mayGive_some.mpr (.drag hmode)

/-- The kinds of the groups that items of every kind and columns share, in their order. -/
def stylingKinds : List Kind := [.pointsOption, .linesOption, .fillOption, .colorOption, .dragOption]

theorem styling_given {gs : List OptionGroup} (h : fs.styling = .ok gs) :
    ∃ os, os.filterMap id = gs ∧ List.Forall₂ fs.MayGive stylingKinds os := by
  simp only [styling, bind_eq_ok, pure_eq, Except.ok.injEq] at h
  obtain ⟨points, hp, lines, hl, fill, hf, color, hc, drag, hd, rfl⟩ := h
  exact ⟨_, rfl, .cons (points_given _ hp) <| .cons (lines_given _ hl) <| .cons (fill_given _ hf) <|
    .cons (color_given _ hc) <| .cons (drag_given _ hd) .nil⟩

/-! ## Expressions -/

/-- A group that is there under one condition. -/
theorem mayGive_of_choice {condition : Bool} (h : condition = true → fs.Gives k g) :
    fs.MayGive k (if condition then some g else none) := by
  cases condition with
  | false => exact mayGive_none
  | true => exact mayGive_some.mpr (h rfl)

theorem clickableLabel_given : fs.MayGive .clickableLabelOption (fs.get "clickableInfo").entries.clickableLabel := by
  refine mayGive_of_choice fun h => ?_
  rw [has_iff, get_entries] at h
  rw [get_entries]
  exact .clickableLabel h

theorem clickableRules_given :
    Ensures (fs.MayGive .clickableRulesOption) (fs.get "clickableInfo").entries.clickableRules := by
  intro o h
  unfold clickableRules at h
  split at h
  · simp only [bind_eq_ok, pure_eq, Except.ok.injEq, get_entries, truthy] at h
    obtain ⟨members, hmembers, rules, hrules, rfl⟩ := h
    exact mayGive_some.mpr (.clickableRules hmembers hrules)
  · cases h
    exact mayGive_none

theorem regression_given : Ensures (fs.MayGive .regressionOption) fs.regression := by
  refine mayGive_unless fun habsent o h => ?_
  obtain ⟨parameters, hparameters, h⟩ := bind_eq_ok.mp h
  obtain ⟨hobject, rfl⟩ := nested_eq_ok.mp hparameters
  have hnothing : (fs.get "regressionParameters").entries = [] → fs.truthy "isLogModeRegression" = false →
      fs.truthy "residualVariable" = true := by
    intro hentries hlog
    rw [entries_eq_nil hobject] at hentries
    rw [hlog, truthy, hentries] at habsent
    simpa using habsent
  dsimp only at h
  split at h
  · rename_i hresidual
    simp only [bind_eq_ok, pure_eq, Except.ok.injEq, map_eq_ok] at h
    obtain ⟨_, ⟨l, hl, rfl⟩, rfl⟩ := h
    refine mayGive_some.mpr (.regression ?_ ?_ ?_)
    · intro l' hl'
      cases hl'
      exact hl
    · simp [hresidual]
    · simp
  · rename_i hresidual
    simp only [ok_bind, pure_eq, Except.ok.injEq] at h
    subst h
    refine mayGive_some.mpr (.regression (by simp) ?_ ?_)
    · simp [hresidual]
    · exact fun hnone => hresidual (hnothing hnone.1 hnone.2.2)

theorem slider_given : Ensures (fs.MayGive .sliderOption) fs.slider := by
  intro o h
  simp only [slider, bind_eq_ok] at h
  obtain ⟨slider, hslider, mode, hmode, bounds, hbounds, period, hperiod, h⟩ := h
  obtain ⟨-, rfl⟩ := nested_eq_ok.mp hslider
  simp only [truthy, get_entries] at hmode h
  refine mayGive_unless (fun habsent o h => ?_) o h
  cases h
  refine mayGive_some.mpr (.slider hmode hbounds hperiod rfl fun hnone => habsent ?_)
  simp only [hnone, List.isEmpty_nil, Option.isNone_none, Bool.and_self]

/-- A reader of bounds asks for their object only. -/
theorem bounds_mayGive {key : String} {group : Interval → OptionGroup}
    (hgroup : ∀ {bounds}, (fs.get key).IsObject → (fs.get key).entries.interval = .ok bounds →
      fs.Gives k (group bounds)) :
    Ensures (fs.MayGive k)
      (if fs.has key then do return some (group (← (← (fs.get key).fields).interval)) else .ok none) := by
  intro o h
  split at h
  · simp only [bind_eq_ok, pure_eq, Except.ok.injEq, fields_eq_ok] at h
    obtain ⟨inner, hinner, bounds, hbounds, rfl⟩ := h
    exact mayGive_some.mpr (hgroup ⟨inner, hinner⟩ (by rw [hinner]; exact hbounds))
  · cases h
    exact mayGive_none

theorem polarDomain_given : Ensures (fs.MayGive .polarDomainOption) fs.polarDomain := bounds_mayGive .polarDomain

theorem domain_given : Ensures (fs.MayGive .domainOption) fs.domain := bounds_mayGive .domain

theorem cdf_given : Ensures (fs.MayGive .cdfOption) fs.cdf := by
  intro o h
  simp only [cdf, bind_eq_ok] at h
  obtain ⟨cdf, hcdf, bounds, hbounds, h⟩ := h
  obtain ⟨-, rfl⟩ := nested_eq_ok.mp hcdf
  simp only [truthy, get_entries] at h
  refine mayGive_unless (fun habsent o h => ?_) o h
  cases h
  refine mayGive_some.mpr (.cdf hbounds rfl fun hnone => habsent ?_)
  simp only [hnone, List.isEmpty_nil, Option.isNone_none, Bool.and_self]

theorem label_given : Ensures (fs.MayGive .labelOption) fs.label := by
  intro o h
  simp only [label, bind_eq_ok] at h
  obtain ⟨editable, heditable, size, hsize, angle, hangle, h⟩ := h
  refine mayGive_unless (fun habsent o h => ?_) o h
  cases h
  refine mayGive_some.mpr (.label heditable hsize hangle rfl fun hnone => habsent ?_)
  simp only [hnone, List.isEmpty_nil, isNull, Option.isNone_none, Bool.and_self]

theorem histogramMode_given : fs.MayGive .histogramModeOption (fs.get "vizProps").entries.histogramMode := by
  unfold histogramMode
  simp only [get_entries]
  split
  · exact mayGive_none
  · rename_i habsent
    rw [Bool.or_eq_true, isNull_iff, not_or, Bool.not_eq_true] at habsent
    exact mayGive_some.mpr (.histogramMode habsent.1 habsent.2)

theorem boxplot_given : Ensures (fs.MayGive .boxplotOption) (fs.get "vizProps").entries.boxplot := by
  intro o h
  unfold boxplot at h
  simp only [truthy, get_entries] at h
  refine mayGive_unless (fun habsent o h => ?_) o h
  simp only [bind_eq_ok, pure_eq, Except.ok.injEq] at h
  obtain ⟨breadth, hbreadth, offset, hoffset, rfl⟩ := h
  exact mayGive_some.mpr (.boxplot hbreadth hoffset rfl (not_absent hbreadth hoffset habsent))

/-- The kinds of the groups that only expressions have, in their order. -/
def expressionKinds : List Kind := [
  .clickableLabelOption, .clickableRulesOption, .regressionOption, .sliderOption, .polarDomainOption, .domainOption,
  .cdfOption, .labelOption, .displayOption, .binsAlignedOption, .histogramModeOption, .dotplotOption, .boxplotOption]

/-- The groups of an expression: those before that of its regression, and those behind it. -/
theorem expressionGroups_split {gs : List OptionGroup} (h : fs.expressionGroups = .ok gs) :
    ∃ before regression after, (before ++ regression :: after).filterMap id = gs ∧
      List.Forall₂ fs.MayGive (expressionKinds.take 2) before ∧ fs.regression = .ok regression ∧
      List.Forall₂ fs.MayGive (expressionKinds.drop 3) after := by
  simp only [expressionGroups, bind_eq_ok, pure_eq, Except.ok.injEq] at h
  obtain ⟨info, hinfo, rules, hrules, regression, hregression, slider, hslider, polar, hpolar, domain, hdomain, cdf,
    hcdf, label, hlabel, viz, hviz, boxplot, hboxplot, rfl⟩ := h
  obtain ⟨-, rfl⟩ := nested_eq_ok.mp hinfo
  obtain ⟨-, rfl⟩ := nested_eq_ok.mp hviz
  have hfraction : fs.MayGive .displayOption fs.fraction := mayGive_of_choice .display
  have hbins : fs.MayGive .binsAlignedOption (fs.get "vizProps").entries.binsAligned :=
    mayGive_of_choice fun h => .binsAligned (get_entries _ _ ▸ h)
  have hdots : fs.MayGive .dotplotOption (fs.get "vizProps").entries.dotplot :=
    mayGive_of_choice fun h => .dotplot (get_entries _ _ ▸ h)
  exact ⟨[_, _], _, _, rfl, .cons clickableLabel_given <| .cons (clickableRules_given _ hrules) .nil, hregression,
    .cons (slider_given _ hslider) <| .cons (polarDomain_given _ hpolar) <| .cons (domain_given _ hdomain) <|
    .cons (cdf_given _ hcdf) <| .cons (label_given _ hlabel) <| .cons hfraction <| .cons hbins <|
    .cons histogramMode_given <| .cons hdots <| .cons (boxplot_given _ hboxplot) .nil⟩

theorem expressionGroups_given {gs : List OptionGroup} (h : fs.expressionGroups = .ok gs) :
    ∃ os, os.filterMap id = gs ∧ List.Forall₂ fs.MayGive expressionKinds os := by
  obtain ⟨before, regression, after, hgs, hbefore, hregression, hafter⟩ := expressionGroups_split h
  exact ⟨_, hgs, List.rel_append hbefore (.cons (regression_given _ hregression) hafter)⟩

/-- Every mode of a histogram but counting has its group. -/
theorem histogramMode_mem {gs : List OptionGroup} (h : fs.expressionGroups = .ok gs)
    (hn : (fs.get "vizProps").valueOf "histogramMode" ≠ .null)
    (hc : ((fs.get "vizProps").valueOf "histogramMode").is "count" = false) :
    .histogramMode [.given ((fs.get "vizProps").valueOf "histogramMode")] ∈ gs := by
  simp only [expressionGroups, bind_eq_ok, pure_eq, Except.ok.injEq] at h
  obtain ⟨_, -, _, -, _, -, _, -, _, -, _, -, _, -, _, -, viz, hviz, _, -, rfl⟩ := h
  obtain ⟨-, rfl⟩ := nested_eq_ok.mp hviz
  refine List.mem_filterMap.mpr ⟨(fs.get "vizProps").entries.histogramMode, by simp, ?_⟩
  have hn' : ((fs.get "vizProps").valueOf "histogramMode").isNull = false := by
    rw [← Bool.not_eq_true, isNull_iff]
    exact hn
  simp [histogramMode, hn', hc]

end Json.Fields

/-! ## Items -/

namespace ItemKind

open Json.Fields

/-- The kinds of the groups that only items of this kind have, in their order. -/
def ownKinds : ItemKind → List Kind
  | .simulation => [.fpsOption]
  | .image => [.nameOption, .imageOption]
  | .expression => expressionKinds
  | .folder | .table | .text => []

theorem geometry_given {fs : Json.Fields} : Ensures (fs.MayGive .imageOption) (geometry fs) := by
  intro o h
  simp only [geometry, bind_eq_ok] at h
  obtain ⟨width, hwidth, height, hheight, center, hcenter, angle, hangle, opacity, hopacity, h⟩ := h
  refine mayGive_unless (fun habsent o h => ?_) o h
  cases h
  refine mayGive_some.mpr (.image hwidth hheight hcenter hangle hopacity ?_)
  simpa only [List.all_eq_true, Option.isNone_iff_eq_none, not_forall, exists_prop] using habsent

theorem groups_given {fs : Json.Fields} {kind : ItemKind} {gs : List OptionGroup} (h : kind.groups fs = .ok gs) :
    ∃ os, os.filterMap id = gs ∧ List.Forall₂ fs.MayGive kind.ownKinds os := by
  cases kind with
  | expression => exact expressionGroups_given h
  | simulation =>
    simp only [groups, bind_eq_ok, pure_eq, Except.ok.injEq] at h
    obtain ⟨rate, hrate, rfl⟩ := h
    refine ⟨[rate.map OptionGroup.fps], by cases rate <;> rfl, .cons ?_ .nil⟩
    cases rate with
    | none => exact mayGive_none
    | some rate => exact mayGive_some.mpr (.fps hrate)
  | image =>
    simp only [groups, bind_eq_ok, pure_eq, Except.ok.injEq] at h
    obtain ⟨geometry, hgeometry, rfl⟩ := h
    have hname : fs.MayGive .nameOption (if fs.has "name" then some (.name (fs.get "name")) else none) :=
      mayGive_of_choice fun h => .name (has_iff.mp h)
    exact ⟨_, rfl, .cons hname <| .cons (geometry_given _ hgeometry) .nil⟩
  | folder | table | text =>
    obtain rfl := Except.ok.inj h
    exact ⟨[], rfl, .nil⟩

end ItemKind

open Json.Fields

theorem Column.ofJson_given {j : Json} {c : Column} (h : Column.ofJson j = .ok c) :
    ∃ fs : Json.Fields, j = .obj fs ∧ ∀ g ∈ c.options, ∃ k ∈ stylingKinds, fs.Gives k g := by
  simp only [Column.ofJson, bind_eq_ok, pure_eq, Except.ok.injEq, fields_eq_ok] at h
  obtain ⟨fs, rfl, _, -, _, -, _, -, styling, hs, rfl⟩ := h
  obtain ⟨os, rfl, hos⟩ := styling_given hs
  exact ⟨fs, rfl, gives_of_mem hos⟩

theorem Item.ofJson_given {j : Json} {t : Item Affix} (h : Item.ofJson j = .ok t) :
    ∃ (fs : Json.Fields) (id : String) (kind : ItemKind), j = .obj fs ∧ ItemKind.ofJson? (fs.get "type") = some kind ∧
      ∀ g ∈ t.options, g = .id id ∨ ∃ k ∈ stylingKinds ++ kind.ownKinds, fs.Gives k g := by
  obtain ⟨fs, id, styling, kind, affix, groups, rfl, hs, hk, -, hg, rfl⟩ := Item.ofJson_eq_ok h
  obtain ⟨os, rfl, hos⟩ := styling_given hs
  obtain ⟨own, rfl, hown⟩ := ItemKind.groups_given hg
  refine ⟨fs, id.text, kind, rfl, hk, fun g hgm => ?_⟩
  rcases List.mem_cons.mp hgm with rfl | hgm
  · exact .inl rfl
  · refine .inr (gives_of_mem (List.rel_append hos hown) g ?_)
    rw [List.filterMap_append]
    exact hgm

end GraphScript
