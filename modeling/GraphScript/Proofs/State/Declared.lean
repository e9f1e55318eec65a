/-
  GraphScript.Proofs.State.Declared — which translated items can be written.

  A translation makes texts of most fields: ids, expressions, words of modes. The fields that it
  passes through are few, and an item can be written when each of these has the sort that it is
  written as. Most may be missing.

  - `Item.ofJson_writable`: the demands, read off the item.
-/
import GraphScript.Proofs.Script.Writable
import GraphScript.Proofs.State.Flags
import GraphScript.Proofs.State.Readable

namespace GraphScript

open Faults Json

/-! ## Option groups -/

/-- What a translated group passes through has the sort that it is written as. -/
def OptionGroup.Declared : OptionGroup → Prop
  | .histogramMode flags => ∀ f ∈ flags, f.Writable
  | g => g.Presentable

theorem OptionGroup.Worded.writable_iff {g : OptionGroup} (h : g.Worded) : g.Writable ↔ g.Declared := by
  by_cases hk : g.kind = .histogramModeOption
  · cases g with
    | histogramMode flags => simp [Writable, Presentable, Declared, OptionGroup.flags]
    | _ => cases hk
  · have hflags : ∀ f ∈ g.flags, f.Writable := by
      intro f hf
      obtain ⟨w, -, rfl⟩ := List.mem_map.mp ((h hk).subset hf)
      trivial
    have hd : g.Declared ↔ g.Presentable := by
      cases g with
      | histogramMode flags => exact absurd rfl hk
      | _ => exact Iff.rfl
    rw [hd, Writable, and_iff_left hflags]

/-- The group, if it is there, is declared. -/
def AllDeclared (o : Option OptionGroup) : Prop := ∀ g ∈ o, g.Declared

@[simp] theorem allDeclared_none : AllDeclared none := nofun

@[simp] theorem allDeclared_some {g : OptionGroup} : AllDeclared (some g) ↔ g.Declared := by simp [AllDeclared]

theorem declared_of_filterMap {groups : List (Option OptionGroup)} :
    (∀ g ∈ groups.filterMap id, g.Declared) ↔ ∀ o ∈ groups, AllDeclared o := by
  simp only [List.mem_filterMap, id, AllDeclared]
  constructor
  · exact fun h o ho g hg => h g ⟨o, ho, hg⟩
  · rintro h g ⟨o, ho, hg⟩
    exact h o ho g hg

/-- A group without any value that is passed through. -/
theorem allDeclared_of_choice {condition : Bool} {g : OptionGroup} (hg : g.Declared) :
    AllDeclared (if condition then some g else none) := by
  cases condition
  · exact allDeclared_none
  · exact allDeclared_some.mpr hg

/-- The values of an object are numbers. -/
def Json.HoldsNumbers (j : Json) : Prop := ∀ entry ∈ j.entries, entry.2.IsNumber

namespace Json.Fields

section

variable (fs : Fields)

theorem points_declared : Ensures AllDeclared fs.points := by
  unfold points
  split <;> simp [ensures_bind, OptionGroup.Declared, OptionGroup.Presentable]

theorem lines_declared : Ensures AllDeclared fs.lines := by
  unfold lines
  split <;> simp [ensures_bind, OptionGroup.Declared, OptionGroup.Presentable]

theorem fill_declared : Ensures AllDeclared fs.fill := by
  unfold fill
  split <;> simp [ensures_bind, OptionGroup.Declared, OptionGroup.Presentable]

theorem color_declared : Ensures (fun o => AllDeclared o ↔ NullOr IsText (fs.get "color")) fs.color := by
  unfold color
  split
  · rename_i h
    simp only [Bool.and_eq_true, not_has] at h
    simp [h.1, nullOr_null]
  · simp [ensures_bind, OptionGroup.Declared, OptionGroup.Presentable]

theorem drag_declared : Ensures AllDeclared fs.drag := by
  simp only [drag, ensures_bind, pure_eq, ensures_ok]
  rintro (_ | w) -
  · exact allDeclared_none
  · exact allDeclared_some.mpr trivial

/-- Of the styling, the color is passed through. -/
theorem styling_declared :
    Ensures (fun gs => (∀ g ∈ gs, g.Declared) ↔ NullOr IsText (fs.get "color")) fs.styling := by
  intro gs h
  simp only [styling, bind_eq_ok, pure_eq, Except.ok.injEq] at h
  obtain ⟨points, hp, lines, hl, fill, hf, color, hc, drag, hd, rfl⟩ := h
  rw [declared_of_filterMap]
  simp [fs.points_declared _ hp, fs.lines_declared _ hl, fs.fill_declared _ hf, fs.color_declared _ hc,
    fs.drag_declared _ hd]

/-! ## Expressions -/

theorem clickableLabel_declared : AllDeclared fs.clickableLabel ↔ NullOr IsText (fs.get "description") := by
  unfold clickableLabel
  split
  · rename_i h
    simp [OptionGroup.Declared, OptionGroup.Presentable, NullOr, has_iff.mp h]
  · rename_i h
    rw [has_iff, not_not] at h
    simp [h, nullOr_null]

theorem clickableRules_declared : Ensures AllDeclared fs.clickableRules := by
  unfold clickableRules
  split <;> simp [ensures_bind, OptionGroup.Declared, OptionGroup.Presentable]

theorem regression_declared :
    Ensures (fun o => AllDeclared o ↔ (fs.get "regressionParameters").HoldsNumbers) fs.regression := by
  unfold regression
  split
  · rename_i h
    simp only [truthy, Bool.and_eq_true, Bool.not_eq_true'] at h
    have hn : (fs.get "regressionParameters").entries = [] :=
      (nested_eq_ok.mp (by rw [nested, h.1.1]; rfl)).2
    simp [HoldsNumbers, hn]
  · rw [ensures_bind]
    intro parameters hp
    obtain ⟨-, rfl⟩ := nested_eq_ok.mp hp
    dsimp only
    split <;> simp only [ensures_bind, pure_eq, ensures_ok]
    all_goals
      intro residuals _
      rw [allDeclared_some]
      exact List.forall_mem_map

theorem slider_declared : Ensures AllDeclared fs.slider := by
  simp only [slider, ensures_bind]
  intro slider _ mode _ bounds _ period _
  split <;> simp [OptionGroup.Declared, OptionGroup.Presentable]

theorem polarDomain_declared : Ensures AllDeclared fs.polarDomain := by
  unfold polarDomain
  split <;> simp [ensures_bind, OptionGroup.Declared, OptionGroup.Presentable]

theorem domain_declared : Ensures AllDeclared fs.domain := by
  unfold domain
  split <;> simp [ensures_bind, OptionGroup.Declared, OptionGroup.Presentable]

theorem cdf_declared : Ensures AllDeclared fs.cdf := by
  simp only [cdf, ensures_bind]
  intro cdf _ bounds _
  split <;> simp [OptionGroup.Declared, OptionGroup.Presentable]

theorem label_declared : Ensures (fun o => AllDeclared o ↔ FalsyOr IsText (fs.get "label")) fs.label := by
  simp only [label, ensures_bind, ← nullOr_orNull]
  intro editable _ size _ angle _
  split
  · rename_i h
    simp only [Bool.and_eq_true, isNull_iff] at h
    simp [h.1.1.2, nullOr_null]
  · simp [OptionGroup.Declared, OptionGroup.Presentable]

theorem histogramMode_declared : AllDeclared fs.histogramMode ↔ NullOr IsText (fs.get "histogramMode") := by
  unfold histogramMode
  dsimp only
  split
  · rename_i h
    rw [Bool.or_eq_true, isNull_iff] at h
    refine iff_of_true allDeclared_none (h.imp_right fun h => ?_)
    cases hm : fs.get "histogramMode" with
    | str s => trivial
    | _ => simp [hm, is] at h
  · rename_i h
    rw [Bool.or_eq_true, isNull_iff, not_or] at h
    simp [OptionGroup.Declared, Flag.Writable, NullOr, h.1]

theorem boxplot_declared : Ensures AllDeclared fs.boxplot := by
  unfold boxplot
  dsimp only
  split <;> simp [ensures_bind, OptionGroup.Declared, OptionGroup.Presentable]

end

end Json.Fields

/-- The sorts of what an expression passes through. -/
def expressionTypes : List Demand :=
  [⟨["clickableInfo", "description"], NullOr IsText⟩, ⟨["regressionParameters"], HoldsNumbers⟩,
    ⟨["label"], FalsyOr IsText⟩, ⟨["vizProps", "histogramMode"], NullOr IsText⟩]

theorem Json.Fields.expressionGroups_declared (fs : Json.Fields) :
    Ensures (fun gs => (∀ g ∈ gs, g.Declared) ↔ (Json.obj fs).Meets expressionTypes) fs.expressionGroups := by
  intro gs h
  simp only [expressionGroups, bind_eq_ok, pure_eq, Except.ok.injEq] at h
  obtain ⟨info, hi, rules, hrules, regression, hregression, slider, hslider, polar, hpolar, domain, hdomain, cdf, hcdf,
    label, hlabel, viz, hv, boxplot, hboxplot, rfl⟩ := h
  obtain ⟨-, rfl⟩ := nested_eq_ok.mp hi
  obtain ⟨-, rfl⟩ := nested_eq_ok.mp hv
  have hfraction : AllDeclared fs.fraction := allDeclared_of_choice trivial
  have hbins : ∀ viz : Json.Fields, AllDeclared viz.binsAligned := fun _ => allDeclared_of_choice trivial
  have hdot : ∀ viz : Json.Fields, AllDeclared viz.dotplot := fun _ => allDeclared_of_choice trivial
  rw [declared_of_filterMap]
  simp [clickableLabel_declared, clickableRules_declared _ _ hrules, regression_declared _ _ hregression,
    slider_declared _ _ hslider, polarDomain_declared _ _ hpolar, domain_declared _ _ hdomain, cdf_declared _ _ hcdf,
    label_declared _ _ hlabel, hfraction, hbins, histogramMode_declared, hdot, boxplot_declared _ _ hboxplot,
    expressionTypes]

/-! ## Columns and items -/

theorem writable_iff_declared {gs : List OptionGroup} (h : ∀ g ∈ gs, g.Worded) :
    (∀ g ∈ gs, g.Writable) ↔ ∀ g ∈ gs, g.Declared :=
  forall₂_congr fun g hg => (h g hg).writable_iff

theorem Json.Fields.styling_writable (fs : Json.Fields) :
    Ensures (fun gs => (∀ g ∈ gs, g.Writable) ↔ NullOr IsText (fs.get "color")) fs.styling :=
  fun gs h => (writable_iff_declared (styling_worded h)).trans (fs.styling_declared gs h)

/-- The sort of what the styling of an item or a column passes through. -/
def colorType : Demand := ⟨["color"], NullOr IsText⟩

/-- What the column passes through has the sort that it is written as. -/
def HasColumnTypes (j : Json) : Prop := j.Meets [colorType]

theorem Column.ofJson_writable (j : Json) : Ensures (fun c => c.Writable ↔ HasColumnTypes j) (Column.ofJson j) := by
  intro c h
  simp only [ofJson, bind_eq_ok, pure_eq, Except.ok.injEq, fields_eq_ok] at h
  obtain ⟨fs, rfl, _, -, values, -, header, -, styling, hs, rfl⟩ := h
  refine (fs.styling_writable styling hs).trans ?_
  simp [HasColumnTypes, colorType]

/-- The sorts of what items of this kind alone pass through. -/
def ItemKind.types : ItemKind → List Demand
  | .folder => [⟨["title"], FalsyOr IsText⟩]
  | .table => [⟨["columns"], FalsyOr (Yields HasColumnTypes)⟩]
  | .simulation => []
  | .expression => expressionTypes
  | .image => [⟨["image_url"], FalsyOr IsText⟩, ⟨["name"], NullOr IsText⟩]
  | .text => [⟨["text"], NullOr IsText⟩]

/-- What the item passes through has the sorts that it is written as. -/
def HasItemTypes (j : Json) : Prop :=
  ∀ kind, ItemKind.ofJson? (j.valueOf "type") = some kind → j.Meets (colorType :: kind.types)

namespace ItemKind

variable {fs : Json.Fields} {kind : ItemKind} {a : Affix} {gs : List OptionGroup}

theorem image_groups_writable (h : groups fs .image = .ok gs) :
    (∀ g ∈ gs, g.Writable) ↔ NullOr IsText (fs.get "name") := by
  rw [writable_iff_declared (groups_worded h)]
  simp only [groups, bind_eq_ok, pure_eq, Except.ok.injEq] at h
  obtain ⟨geometry, hg, rfl⟩ := h
  have hgeometry : AllDeclared geometry := by
    simp only [ItemKind.geometry, bind_eq_ok] at hg
    obtain ⟨_, -, _, -, _, -, _, -, _, -, hg⟩ := hg
    split at hg
    · cases hg
      exact allDeclared_none
    · cases hg
      exact allDeclared_some.mpr trivial
  rw [declared_of_filterMap]
  by_cases hn : fs.get "name" = .null
  · simp [Json.Fields.has, hn, isNull, hgeometry, nullOr_null]
  · simp [Json.Fields.has_iff.mpr hn, hn, hgeometry, NullOr, OptionGroup.Declared, OptionGroup.Presentable]

theorem affix_and_groups_writable (ha : kind.affix fs = .ok a) (hg : kind.groups fs = .ok gs) :
    a.Writable ∧ (∀ g ∈ gs, g.Writable) ↔ (Json.obj fs).Meets kind.types := by
  cases kind with
  | folder =>
    obtain rfl := Except.ok.inj ha
    obtain rfl := Except.ok.inj hg
    simp [Affix.Writable, Folder.Writable, types]
  | table =>
    simp only [affix, bind_eq_ok, pure_eq, Except.ok.injEq] at ha
    obtain ⟨members, hm, columns, hc, rfl⟩ := ha
    obtain rfl := Except.ok.inj hg
    simp [Affix.Writable, Leaf.Writable, forall_mem_of_mapM Column.ofJson_writable hc, types, falsyOr_yields hm]
  | simulation =>
    have hw := writable_iff_declared (groups_worded hg)
    simp only [affix, bind_eq_ok, pure_eq, Except.ok.injEq] at ha
    obtain ⟨_, -, _, -, rules, -, rfl⟩ := ha
    simp only [groups, bind_eq_ok, pure_eq, Except.ok.injEq] at hg
    obtain ⟨fps, -, rfl⟩ := hg
    rw [hw]
    cases fps <;> simp [Affix.Writable, Leaf.Writable, OptionGroup.Declared, OptionGroup.Presentable, types]
  | expression =>
    have hw := writable_iff_declared (groups_worded hg)
    simp only [affix, bind_eq_ok, pure_eq, Except.ok.injEq] at ha
    obtain ⟨latex, -, rfl⟩ := ha
    rw [hw, fs.expressionGroups_declared.of_ok hg]
    exact and_iff_right trivial
  | image =>
    obtain rfl := Except.ok.inj ha
    have hurl : (if fs.truthy "image_url" then fs.get "image_url" else Json.str "").IsText ↔
        FalsyOr IsText (fs.get "image_url") := by
      rw [Json.Fields.truthy, FalsyOr]
      split
      · rename_i ht
        simp [ht]
      · rename_i ht
        simp [ht, IsText]
    rw [image_groups_writable hg]
    simp [Affix.Writable, Leaf.Writable, hurl, types]
  | text =>
    obtain rfl := Except.ok.inj ha
    obtain rfl := Except.ok.inj hg
    simp [Affix.Writable, Leaf.Writable, types]

end ItemKind

theorem Item.ofJson_writable (j : Json) :
    Ensures (fun t => t.Writable Affix.Writable ↔ HasItemTypes j) (Item.ofJson j) := by
  intro t h
  obtain ⟨fs, id, styling, kind, affix, groups, rfl, hs, hk, ha, hg, rfl⟩ := Item.ofJson_eq_ok h
  have hid : (OptionGroup.id id.text).Writable := ⟨trivial, nofun⟩
  have hitem : HasItemTypes (.obj fs) ↔ NullOr IsText (fs.get "color") ∧ (Json.obj fs).Meets kind.types := by
    simp [HasItemTypes, hk, colorType]
  rw [hitem, ← fs.styling_writable.of_ok hs, ← ItemKind.affix_and_groups_writable ha hg]
  simp only [Writable, List.cons_append, List.forall_mem_cons, List.forall_mem_append, hid, true_and]
  exact and_left_comm

end GraphScript
