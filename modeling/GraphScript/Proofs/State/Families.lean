/-
  GraphScript.Proofs.State.Families — the settings of the axes, as one table.

  The settings of the axes come in six families. A line of a family has a field for each of its
  sources in the graph; it is there when one of them is not null, and its other fields are null.

  - `axisSettings_show`: the settings of the axes are those of the families, in order.
-/
import GraphScript.Program.Build
import GraphScript.Proofs.State.Fields
import GraphScript.State.Settings

namespace GraphScript

open Faults Json

/-- Settings of one kind, the keys of the graph that their fields are read from, and how. -/
structure Family where
  kind : Kind
  sources : List (String × String)
  read : Json → Except Fault Tree

/-- A value as it stands. -/
def plainTree (v : Json) : Except Fault Tree := .ok (.plain v)

def visibilityTree (v : Json) : Except Fault Tree := .ok (if v.truthy then Visibility.shown else .hidden).tree

def families : List Family :=
  [⟨.minorSubdivisions, [("x", "xAxisMinorSubdivisions"), ("y", "yAxisMinorSubdivisions")], plainTree⟩,
    ⟨.axisSteps, [("x", "xAxisStep"), ("y", "yAxisStep")], plainTree⟩,
    ⟨.axisArrows, [("x", "xAxisArrowMode"), ("y", "yAxisArrowMode")], fun v => (ArrowMode.ofJson v).map (·.tree)⟩,
    ⟨.axisLabels, [("x", "xAxisLabel"), ("y", "yAxisLabel")], plainTree⟩,
    ⟨.axes, [("x", "showXAxis"), ("y", "showYAxis")], visibilityTree⟩,
    ⟨.axisNumbers, [("x", "xAxisNumbers"), ("y", "yAxisNumbers"), ("polar", "polarNumbers")], visibilityTree⟩]

namespace Family

variable (f : Family) (graph : Json.Fields)

/-- One of the sources is not null. -/
def triggered : Bool := f.sources.any fun source => graph.has source.2

/-- The field that is read from a key, null where the key has no value. -/
def value (key : String) : Except Fault Tree := if graph.has key then f.read (graph.get key) else .ok .null

/-- The fields of the line. -/
def values : Except Fault (List Tree) := f.sources.mapM fun source => f.value graph source.2

/-- The line of the family, if there is one. -/
def line? : Except Fault (Option Tree) :=
  if f.triggered graph then (f.values graph).map fun values => some (.record f.kind values) else .ok none

end Family

namespace Json.Fields

variable (graph : Fields) (key : String) {kind : Kind} {sources : List (String × String)}

theorem value_plain : (Family.mk kind sources plainTree).value graph key = .ok (.plain (graph.get key)) := by
  unfold Family.value
  split
  · rfl
  · rename_i hn
    rw [has_iff, not_not] at hn
    rw [hn]
    rfl

theorem isNone_visibility : (Visibility.ofJson? (graph.get key)).isNone = !graph.has key := by
  unfold Visibility.ofJson?
  split <;> simp_all [has]

theorem value_visibility : (Family.mk kind sources visibilityTree).value graph key =
    .ok (treeOf Visibility.tree (Visibility.ofJson? (graph.get key))) := by
  unfold Family.value Visibility.ofJson?
  by_cases hn : graph.get key = .null
  · simp [has, hn, isNull, treeOf]
  · have hn' : (graph.get key).isNull = false := by rwa [← Bool.not_eq_true, isNull_iff]
    simp [has, hn', treeOf, visibilityTree]

theorem rawSetting_tree {setting : Json → Json → Setting} {x y : String}
    (h : ∀ v w, (setting v w).tree = .record kind [.plain v, .plain w]) :
    (Family.mk kind [("x", x), ("y", y)] plainTree).line? graph =
      .ok ((graph.rawSetting setting x y).map Setting.tree) := by
  unfold Family.line? rawSetting
  simp only [Family.triggered, List.any_cons, List.any_nil, Bool.or_false]
  split <;> simp [Family.values, value_plain, Except.map, h]

theorem axesSetting_tree : (Family.mk .axes [("x", "showXAxis"), ("y", "showYAxis")] visibilityTree).line? graph =
      .ok (graph.axesSetting.map Setting.tree) := by
  simp only [Family.line?, Family.triggered, List.any_cons, List.any_nil, Bool.or_false, Family.values, axesSetting,
    isNone_visibility]
  cases graph.has "showXAxis" <;> cases graph.has "showYAxis" <;> simp [value_visibility, Except.map, Setting.tree,
    Setting.kind]

theorem numbersSetting_tree : (Family.mk .axisNumbers
    [("x", "xAxisNumbers"), ("y", "yAxisNumbers"), ("polar", "polarNumbers")] visibilityTree).line? graph =
      .ok (graph.numbersSetting.map Setting.tree) := by
  simp only [Family.line?, Family.triggered, List.any_cons, List.any_nil, Bool.or_false, Family.values, numbersSetting,
    isNone_visibility]
  cases graph.has "xAxisNumbers" <;> cases graph.has "yAxisNumbers" <;> cases graph.has "polarNumbers" <;>
    simp [value_visibility, Except.map, Setting.tree, Setting.kind]

theorem value_arrow : (Family.mk kind sources fun v => (ArrowMode.ofJson v).map (·.tree)).value graph key =
    ((graph.get key).present ArrowMode.ofJson).map (treeOf ArrowMode.tree) := by
  unfold Family.value present has
  cases (graph.get key).isNull with
  | true => rfl
  | false => cases hm : ArrowMode.ofJson (graph.get key) <;> simp [hm, Except.map, treeOf]

theorem has_of_arrow {mode : Option ArrowMode} (h : (graph.get key).present ArrowMode.ofJson = .ok mode) :
    graph.has key = mode.isSome := by
  rcases present_eq_ok.mp h with ⟨hn, rfl⟩ | ⟨hn, m, -, rfl⟩
  · simp [has, hn, isNull]
  · exact has_iff.mpr hn

theorem has_of_arrow_fault {fault : Fault} (h : (graph.get key).present ArrowMode.ofJson = .error fault) :
    graph.has key = true := by
  rw [has_iff]
  intro hn
  rw [hn] at h
  cases h

theorem arrowSetting_tree : (Family.mk .axisArrows [("x", "xAxisArrowMode"), ("y", "yAxisArrowMode")]
    fun v => (ArrowMode.ofJson v).map (·.tree)).line? graph = graph.arrowSetting.map (·.map Setting.tree) := by
  simp only [Family.line?, Family.triggered, List.any_cons, List.any_nil, Bool.or_false, Family.values, value_arrow,
    arrowSetting, List.mapM_cons, List.mapM_nil]
  cases hx : (graph.get "xAxisArrowMode").present ArrowMode.ofJson with
  | error fault =>
    rw [graph.has_of_arrow_fault _ hx]
    rfl
  | ok x =>
    cases hy : (graph.get "yAxisArrowMode").present ArrowMode.ofJson with
    | error fault =>
      rw [graph.has_of_arrow_fault _ hy, Bool.or_true]
      rfl
    | ok y =>
      rw [graph.has_of_arrow _ hx, graph.has_of_arrow _ hy]
      cases x <;> cases y <;> rfl

/-- The settings of the axes are the lines of the families. -/
theorem axisSettings_tree : graph.axisSettings.map (·.map Setting.tree) =
    (families.mapM fun (f : Family) => f.line? graph).map (·.filterMap id) := by
  have hminor : (Family.mk _ _ _).line? graph = .ok (Option.map Setting.tree
      (graph.rawSetting .minorSubdivisions "xAxisMinorSubdivisions" "yAxisMinorSubdivisions")) :=
    graph.rawSetting_tree fun _ _ => rfl
  have hsteps : (Family.mk _ _ _).line? graph = .ok (Option.map Setting.tree
      (graph.rawSetting .axisSteps "xAxisStep" "yAxisStep")) :=
    graph.rawSetting_tree fun _ _ => rfl
  have hlabels : (Family.mk _ _ _).line? graph = .ok (Option.map Setting.tree
      (graph.rawSetting .axisLabels "xAxisLabel" "yAxisLabel")) :=
    graph.rawSetting_tree fun _ _ => rfl
  simp only [families, List.mapM_cons, List.mapM_nil, hminor, hsteps, hlabels, axesSetting_tree, numbersSetting_tree,
    arrowSetting_tree, axisSettings]
  cases graph.arrowSetting with
  | error fault => rfl
  | ok arrows =>
    simp only [Except.map, ok_bind, pure_eq, List.map_filterMap]
    exact congrArg Except.ok (List.filterMap_map (f := Option.map Setting.tree) (g := id)).symm

end Json.Fields

/-- The line shows the sources of the family: its fields are read from those that are not null. -/
def Family.Shows (f : Family) (graph : Json.Fields) (s : Setting) : Prop :=
  ∃ values, f.values graph = .ok values ∧ s.tree = .record f.kind values

theorem forall₂_of_lines {graph : Json.Fields} {fs : List Family} {options : List (Option Tree)}
    (h : fs.mapM (fun f => f.line? graph) = .ok options) :
    List.Forall₂ (fun f t => ∃ values, f.values graph = .ok values ∧ t = .record f.kind values)
      (fs.filter (·.triggered graph)) (options.filterMap id) := by
  rw [mapM_eq_ok] at h
  induction h with
  | nil => exact .nil
  | @cons f o fs options hf _ ih =>
    unfold Family.line? at hf
    split at hf
    · rename_i ht
      obtain ⟨values, hv, rfl⟩ := map_eq_ok.mp hf
      simp only [List.filter_cons, ht, if_true]
      exact .cons ⟨values, hv, rfl⟩ ih
    · rename_i ht
      obtain rfl := Except.ok.inj hf
      simp only [List.filter_cons, ht]
      exact ih

/-- The settings of the axes: one for each family that has a source, in the order of the table. -/
theorem axisSettings_show {graph : Json.Fields} {axes : List Setting} (h : graph.axisSettings = .ok axes) :
    List.Forall₂ (·.Shows graph ·) (families.filter (·.triggered graph)) axes := by
  have ht := graph.axisSettings_tree
  rw [h] at ht
  obtain ⟨options, ho, he⟩ := map_eq_ok.mp ht.symm
  have hlines := forall₂_of_lines ho
  rw [he] at hlines
  have hshown := List.forall₂_map_right_iff.mp hlines
  exact hshown

end GraphScript
