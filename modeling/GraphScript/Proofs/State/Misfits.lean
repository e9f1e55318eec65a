/-
  GraphScript.Proofs.State.Misfits — why items and settings are refused.

  What is asked of a value is its sort, so most of a translation fails only for a value that does
  not fit. A key that must be there can be missing, an item can be of an unknown type, an arrow can
  have an unknown mode. No invariant of a program is looked at on the way.

  - `translate_faults`: what a document can be refused for.
-/
import GraphScript.Proofs.Documents.Parts

namespace GraphScript

open Faults Json

/-- The fault is not that of an invariant. -/
def Fault.IsOfInput : Fault → Prop
  | .invariant _ => False
  | _ => True

theorem Fault.IsMisfit.isOfInput {f : Fault} (h : f.IsMisfit) : f.IsOfInput := by
  rcases h with rfl | rfl <;> trivial

/-! ## Styling -/

namespace Json.Fields

variable (fs : Fields)

theorem points_misfit : FailsWith Fault.IsMisfit fs.points := by
  unfold points
  split <;> simp [failsWith_bind, latex_misfit]

theorem lines_misfit : FailsWith Fault.IsMisfit fs.lines := by
  unfold lines
  split <;> simp [failsWith_bind, latex_misfit]

theorem fill_misfit : FailsWith Fault.IsMisfit fs.fill := by
  unfold fill
  split <;> simp [failsWith_bind, latex_misfit]

theorem color_misfit : FailsWith Fault.IsMisfit fs.color := by
  unfold color
  split <;> simp [failsWith_bind, latex_misfit]

theorem drag_misfit : FailsWith Fault.IsMisfit fs.drag := by
  simp [drag, failsWith_bind, lookupIn_misfit]

theorem styling_misfit : FailsWith Fault.IsMisfit fs.styling := by
  simp [styling, failsWith_bind, points_misfit, lines_misfit, fill_misfit, color_misfit, drag_misfit]

end Json.Fields

/-! ## Expressions -/

theorem ClickableRule.ofJson_misfit (j : Json) : FailsWith Fault.IsMisfit (ClickableRule.ofJson j) := by
  have hside : ∀ (fs : Json.Fields) (key : String),
      FailsWith Fault.IsMisfit (if fs.truthy key then (fs.get key).latex else .ok ⟨""⟩) := by
    intro fs key
    split
    · exact latex_misfit _
    · exact failsWith_ok _
  simp only [ofJson, failsWith_bind, pure_eq, failsWith_ok, implies_true, and_true]
  exact ⟨j.fields_misfit, fun fs _ => ⟨hside fs _, fun _ _ => hside fs _⟩⟩

theorem rulesOf_misfit (members : List Json) : FailsWith Fault.IsMisfit (rulesOf members) :=
  .mapM fun j _ => ClickableRule.ofJson_misfit j

namespace Json.Fields

variable (fs : Fields)

theorem clickableRules_misfit : FailsWith Fault.IsMisfit fs.clickableRules := by
  unfold clickableRules
  split <;> simp [failsWith_bind, members_misfit, rulesOf_misfit]

theorem regression_misfit : FailsWith Fault.IsMisfit fs.regression := by
  unfold regression
  split
  · exact failsWith_ok _
  · refine failsWith_bind.mpr ⟨nested_misfit _, fun parameters _ => ?_⟩
    dsimp only
    split <;> simp [failsWith_bind, Json.latex_misfit]

theorem slider_misfit : FailsWith Fault.IsMisfit fs.slider := by
  simp only [slider, failsWith_bind, apply_ite, pure_eq, failsWith_ok, ite_self, implies_true, and_true]
  simp [nested_misfit, lookupIn_misfit, interval_misfit, latex_misfit]

theorem polarDomain_misfit : FailsWith Fault.IsMisfit fs.polarDomain := by
  unfold polarDomain
  split <;> simp [failsWith_bind, fields_misfit, interval_misfit]

theorem domain_misfit : FailsWith Fault.IsMisfit fs.domain := by
  unfold domain
  split <;> simp [failsWith_bind, fields_misfit, interval_misfit]

theorem cdf_misfit : FailsWith Fault.IsMisfit fs.cdf := by
  simp only [cdf, failsWith_bind, apply_ite, pure_eq, failsWith_ok, ite_self, implies_true, and_true]
  simp [nested_misfit, interval_misfit]

theorem label_misfit : FailsWith Fault.IsMisfit fs.label := by
  simp only [label, failsWith_bind, apply_ite, pure_eq, failsWith_ok, ite_self, implies_true, and_true]
  simp [lookupIn_misfit, latex_misfit]

theorem boxplot_misfit : FailsWith Fault.IsMisfit fs.boxplot := by
  unfold boxplot
  dsimp only
  split <;> simp [failsWith_bind, latex_misfit]

theorem expressionGroups_misfit : FailsWith Fault.IsMisfit fs.expressionGroups := by
  simp [expressionGroups, failsWith_bind, nested_misfit, clickableRules_misfit, regression_misfit, slider_misfit,
    polarDomain_misfit, domain_misfit, cdf_misfit, label_misfit, boxplot_misfit]

end Json.Fields

/-! ## Columns and items -/

theorem Column.ofJson_misfit (j : Json) : FailsWith Fault.IsMisfit (Column.ofJson j) := by
  have hvalues : ∀ members : List Json, FailsWith Fault.IsMisfit (members.mapM Json.latex) :=
    fun _ => .mapM fun v _ => v.latex_misfit
  simp [ofJson, failsWith_bind, fields_misfit, membersIfAny_misfit, hvalues, Json.Fields.latex_misfit,
    Json.Fields.styling_misfit]

namespace ItemKind

theorem affix_misfit (fs : Json.Fields) (kind : ItemKind) : FailsWith Fault.IsMisfit (kind.affix fs) := by
  have hcolumns : ∀ members : List Json, FailsWith Fault.IsMisfit (members.mapM Column.ofJson) :=
    fun _ => .mapM fun j _ => Column.ofJson_misfit j
  cases kind <;> simp [affix, failsWith_bind, membersIfAny_misfit, nested_misfit, hcolumns, rulesOf_misfit,
    Json.Fields.latex_misfit]

theorem groups_misfit (fs : Json.Fields) (kind : ItemKind) : FailsWith Fault.IsMisfit (kind.groups fs) := by
  have hgeometry : FailsWith Fault.IsMisfit (geometry fs) := by
    simp only [geometry, failsWith_bind, apply_ite, pure_eq, failsWith_ok, ite_self, implies_true, and_true]
    simp [Json.Fields.latex_misfit]
  cases kind <;> simp [groups, failsWith_bind, hgeometry, Json.Fields.latex_misfit,
    Json.Fields.expressionGroups_misfit]

end ItemKind

theorem Json.need_faults (j : Json) (key : String) : FailsWith Fault.IsOfInput (j.need key) := by
  unfold need
  split
  · split
    · exact failsWith_ok _
    · exact failsWith_error.mpr trivial
  · exact failsWith_error.mpr trivial

theorem ofInput_of_misfit {α : Type} {x : Except Fault α} (h : FailsWith Fault.IsMisfit x) :
    FailsWith Fault.IsOfInput x := h.mono fun _ => Fault.IsMisfit.isOfInput

theorem Item.ofJson_faults (j : Json) : FailsWith Fault.IsOfInput (Item.ofJson j) := by
  simp only [ofJson, failsWith_bind]
  refine ⟨ofInput_of_misfit j.fields_misfit, fun fs _ => ⟨j.need_faults _, fun id _ =>
    ⟨ofInput_of_misfit fs.styling_misfit, fun styling _ => ?_⟩⟩⟩
  split
  · exact failsWith_error.mpr trivial
  · rename_i kind _
    simp only [failsWith_bind, pure_eq, failsWith_ok, implies_true, and_true]
    exact ⟨ofInput_of_misfit (kind.affix_misfit fs), fun _ _ => ofInput_of_misfit (kind.groups_misfit fs)⟩

theorem Walk.run_faults (w : Walk) (items : List Json) : FailsWith Fault.IsOfInput (w.run items).result := by
  induction items generalizing w with
  | nil => exact failsWith_ok _
  | cons j rest ih =>
    rw [run]
    split
    · exact ih _
    · rename_i fault hf
      have hentry : FailsWith Fault.IsOfInput (Entry.ofJson j) := by
        simp [Entry.ofJson, failsWith_bind, Item.ofJson_faults, ofInput_of_misfit (fields_misfit j)]
      exact failsWith_error.mpr (hentry _ hf)

/-! ## Settings -/

theorem ArrowMode.ofJson_faults (j : Json) : FailsWith Fault.IsOfInput (ArrowMode.ofJson j) := by
  cases j with
  | str s =>
    rw [ofJson]
    split
    · exact failsWith_ok _
    · exact failsWith_error.mpr trivial
  | _ => exact failsWith_error.mpr trivial

theorem flagsSetting_faults (graph : Json) : FailsWith Fault.IsOfInput (flagsSetting graph) := by
  simp [flagsSetting, failsWith_bind, ofInput_of_misfit (fields_misfit graph)]

theorem viewportSetting_faults (graph : Json) : FailsWith Fault.IsOfInput (viewportSetting graph) := by
  simp [viewportSetting, failsWith_bind, need_faults]

theorem Json.Fields.axisSettings_faults (graph : Json.Fields) : FailsWith Fault.IsOfInput graph.axisSettings := by
  have harrows : FailsWith Fault.IsOfInput graph.arrowSetting := by
    simp only [arrowSetting, failsWith_bind, apply_ite, pure_eq, failsWith_ok, ite_self, implies_true, and_true]
    simp [present_failsWith ArrowMode.ofJson_faults]
  simp [axisSettings, failsWith_bind, harrows]

theorem stateSettings_faults (graphFlags : Bool) (fs : Json.Fields) :
    FailsWith Fault.IsOfInput (stateSettings graphFlags fs) := by
  have hflags : FailsWith Fault.IsOfInput (if graphFlags then flagsSetting (graphOf fs) else .ok none) := by
    split
    · exact flagsSetting_faults _
    · exact failsWith_ok _
  rw [stateSettings_eq]
  simp [failsWith_bind, hflags, graphSettings, viewportSetting_faults, ofInput_of_misfit (fields_misfit _),
    Json.Fields.axisSettings_faults]

/-! ## Documents -/

theorem stateFields_faults (state : Json) : FailsWith Fault.IsOfInput (stateFields state) := by
  unfold stateFields
  split
  · exact failsWith_error.mpr trivial
  · split
    · exact failsWith_ok _
    · exact failsWith_error.mpr trivial

theorem stateItems_faults (fs : Json.Fields) : FailsWith Fault.IsOfInput (stateItems fs) := by
  simp [stateItems, failsWith_bind, ofInput_of_misfit (nested_misfit _), ofInput_of_misfit (membersIfAny_misfit _)]

theorem translate_faults (graphFlags : Bool) (state : Json) :
    FailsWith Fault.IsOfInput (translate graphFlags state).result := by
  rw [translate_result]
  simp [stateParts, failsWith_bind, stateFields_faults, stateSettings_faults, stateItems_faults, foldersOf,
    Walk.run_faults]

end GraphScript
