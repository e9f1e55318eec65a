/-
  GraphScript.Proofs.Documents.Declared — which translated documents can be written.

  A document that is translated may still hold, in a field that is passed through, a value of a sort
  that no script shows. These fields are few, and each has one sort (`documentTypes`). Where a value
  is not of its sort the script fails for that; it never fails for want of a part, since a setting
  that has none is not made.

  - `stateSettings_populated`: every setting has a part to show.
  - `script_of_translated`: the documents whose programs can be written.
-/
import GraphScript.Proofs.Documents.Translatable
import GraphScript.Proofs.Folders.Conservation
import GraphScript.Proofs.State.Declared

namespace GraphScript

open Faults Json

/-! ## Items -/

theorem Line.writable_iff_parts {l : Line} {i : Item Affix} (h : l = .item i) :
    l.Writable ↔ ∀ t ∈ l.parts, t.Writable Affix.Writable := by
  obtain ⟨affix, smallFlags, options⟩ := i
  subst h
  cases affix with
  | leaf leaf => simp [Writable, parts, Item.apart]
  | folder f =>
    simp [Writable, parts, Item.apart, Item.Writable, Affix.Writable, Folder.Writable, Item.ofLeaf]
    tauto

theorem foldersOf_writable {items : List Json} {lines : List Line} (h : (foldersOf items).result = .ok lines) :
    (∀ l ∈ lines, l.Writable) ↔ ∀ j ∈ items, HasItemTypes j := by
  obtain ⟨translated, ht⟩ := Walk.run_translates h
  have hlines : ∀ l ∈ lines, l.Writable ↔ ∀ t ∈ l.parts, t.Writable Affix.Writable := by
    intro l hl
    obtain ⟨i, hi, -⟩ := foldersOf_items h l hl
    exact Line.writable_iff_parts hi
  calc (∀ l ∈ lines, l.Writable)
      ↔ ∀ t ∈ lines.flatMap Line.parts, t.Writable Affix.Writable := by
        rw [List.forall_mem_flatMap]
        exact forall₂_congr hlines
    _ ↔ ∀ t ∈ translated, t.Writable Affix.Writable := forall_congr' fun t => by rw [(foldersOf_perm ht h).mem_iff]
    _ ↔ ∀ j ∈ items, HasItemTypes j := forall_mem_of_mapM Item.ofJson_writable ht

/-! ## Settings -/

/-- The numbers that a graph passes through if it has them. -/
def numberKeys : List String := ["xAxisMinorSubdivisions", "yAxisMinorSubdivisions", "xAxisStep", "yAxisStep"]

def settingTypes : List Demand :=
  ⟨["randomSeed"], NullOr IsText⟩ :: (viewportKeys.map fun key => ⟨["graph", "viewport", key], IsNumber⟩)
    ++ (numberKeys.map fun key => ⟨["graph", key], NullOr IsNumber⟩)
    ++ ["xAxisLabel", "yAxisLabel"].map fun key => ⟨["graph", key], NullOr IsText⟩

theorem seedOf_writable (fs : Json.Fields) :
    (∀ s ∈ seedOf fs, s.Writable) ↔ NullOr IsText (fs.get "randomSeed") := by
  by_cases hn : fs.get "randomSeed" = .null
  · simp [seedOf, hn, nullOr_null]
  · simp [seedOf, hn, Setting.Writable, NullOr]

theorem flagsOf_writable (graphFlags : Bool) (graph : Json.Fields) : ∀ s ∈ flagsOf graphFlags graph, s.Writable := by
  intro s hs
  obtain ⟨flags, rfl, hw⟩ := flagsOf_words hs
  intro f hf
  obtain ⟨w, rfl⟩ := hw f hf
  trivial

namespace Json.Fields

variable {graph : Fields} {setting : Json → Json → Setting} {x y : String} {sort : Json → Prop}

theorem rawSetting_writable (h : ∀ v w, (setting v w).Writable ↔ NullOr sort v ∧ NullOr sort w) :
    (∀ s, graph.rawSetting setting x y = some s → s.Writable) ↔ NullOr sort (graph.get x) ∧ NullOr sort (graph.get y) := by
  unfold rawSetting
  split
  · simp [h]
  · rename_i hn
    rw [Bool.or_eq_true, has_iff, has_iff, not_or, not_not, not_not] at hn
    simp [hn.1, hn.2, nullOr_null]

theorem rawSetting_populated (h : ∀ v w, v ≠ .null ∨ w ≠ .null → (setting v w).Populated) :
    ∀ s, graph.rawSetting setting x y = some s → s.Populated := by
  intro s hs
  unfold rawSetting at hs
  split at hs
  · rename_i hn
    rw [Bool.or_eq_true, has_iff, has_iff] at hn
    cases hs
    exact h _ _ hn
  · cases hs

theorem arrowSetting_populated : Ensures (fun o => ∀ s, o = some s → s.Populated ∧ s.Writable) graph.arrowSetting := by
  simp only [arrowSetting, ensures_bind]
  intro x _ y _
  split
  · simp
  · rename_i hn
    simp only [ensures_ok, pure_eq, Option.some.injEq, forall_eq']
    refine ⟨?_, trivial⟩
    simpa [Setting.Populated, imp_iff_not_or] using hn

theorem axesSetting_populated : ∀ s, graph.axesSetting = some s → s.Populated ∧ s.Writable := by
  intro s hs
  simp only [axesSetting] at hs
  split at hs
  · cases hs
  · rename_i hn
    cases hs
    refine ⟨?_, trivial⟩
    simpa [Setting.Populated, imp_iff_not_or] using hn

theorem numbersSetting_populated : ∀ s, graph.numbersSetting = some s → s.Populated ∧ s.Writable := by
  intro s hs
  simp only [numbersSetting] at hs
  split at hs
  · cases hs
  · rename_i hn
    cases hs
    refine ⟨?_, trivial⟩
    simpa [Setting.Populated, imp_iff_not_or, or_assoc] using hn

theorem axisSettings_populated : Ensures (fun axes => ∀ s ∈ axes, s.Populated) graph.axisSettings := by
  simp only [axisSettings, ensures_bind, pure_eq, ensures_ok, List.forall_mem_filterMap, id]
  intro arrows ha o ho
  simp only [List.mem_cons, List.not_mem_nil, or_false] at ho
  rcases ho with rfl | rfl | rfl | rfl | rfl | rfl
  · exact rawSetting_populated fun _ _ h => h
  · exact rawSetting_populated fun _ _ h => h
  · exact fun s hs => (arrowSetting_populated.of_ok ha s hs).1
  · exact rawSetting_populated fun _ _ h => h
  · exact fun s hs => (axesSetting_populated s hs).1
  · exact fun s hs => (numbersSetting_populated s hs).1

theorem axisSettings_writable (graph : Fields) : Ensures (fun axes => (∀ s ∈ axes, s.Writable) ↔
    (Json.obj graph).Meets ((numberKeys.map fun key => ⟨[key], NullOr IsNumber⟩)
      ++ ["xAxisLabel", "yAxisLabel"].map fun key => ⟨[key], NullOr IsText⟩)) graph.axisSettings := by
  simp only [axisSettings, ensures_bind, pure_eq, ensures_ok, List.forall_mem_filterMap, id]
  intro arrows ha
  have harrows : ∀ s, arrows = some s → s.Writable := fun s hs => (arrowSetting_populated.of_ok ha s hs).2
  have haxes : ∀ s, graph.axesSetting = some s → s.Writable := fun s hs => (axesSetting_populated s hs).2
  have hnumbers : ∀ s, graph.numbersSetting = some s → s.Writable := fun s hs => (numbersSetting_populated s hs).2
  have hminor : (∀ s, graph.rawSetting .minorSubdivisions "xAxisMinorSubdivisions" "yAxisMinorSubdivisions" = some s →
      s.Writable) ↔ _ := rawSetting_writable fun _ _ => Iff.rfl
  have hsteps : (∀ s, graph.rawSetting .axisSteps "xAxisStep" "yAxisStep" = some s → s.Writable) ↔ _ :=
    rawSetting_writable fun _ _ => Iff.rfl
  have hlabels : (∀ s, graph.rawSetting .axisLabels "xAxisLabel" "yAxisLabel" = some s → s.Writable) ↔ _ :=
    rawSetting_writable fun _ _ => Iff.rfl
  simp only [List.forall_mem_cons, hminor, hsteps, hlabels, eq_true harrows, eq_true haxes, eq_true hnumbers]
  simp [numberKeys, and_assoc]

end Json.Fields

theorem stateSettings_populated {graphFlags : Bool} {fs : Json.Fields} :
    Ensures (fun settings => ∀ s ∈ settings, s.Populated) (stateSettings graphFlags fs) := by
  intro settings h
  obtain ⟨graph, axes, -, ha, rfl⟩ := stateSettings_eq_ok h
  simp only [List.forall_mem_append, List.forall_mem_cons]
  refine ⟨⟨?_, ?_⟩, ?_, Json.Fields.axisSettings_populated.of_ok ha⟩
  · unfold seedOf
    split <;> simp [Setting.Populated]
  · unfold flagsOf
    split
    · rename_i hf
      have ht : hasToggle graph = true := (Bool.and_eq_true_iff.mp hf).2
      simpa [Setting.Populated, toggleFlags_eq_nil] using ht
    · simp
  · exact .inl (Option.some_ne_none _)

theorem viewportOf_writable (graph : Json.Fields) : (viewportOf graph).Writable ↔
    ∀ key ∈ viewportKeys, ((graph.get "viewport").valueOf key).IsNumber := by
  simp [viewportOf, Setting.Writable, NumberInterval.Writable, viewportKeys, and_assoc]

theorem stateSettings_writable {graphFlags : Bool} {fs : Json.Fields} :
    Ensures (fun settings => (∀ s ∈ settings, s.Writable) ↔ (Json.obj fs).Meets settingTypes)
      (stateSettings graphFlags fs) := by
  intro settings h
  obtain ⟨graph, axes, hg, ha, rfl⟩ := stateSettings_eq_ok h
  simp only [List.forall_mem_append, List.forall_mem_cons, seedOf_writable, eq_true (flagsOf_writable graphFlags graph),
    viewportOf_writable, (Json.Fields.axisSettings_writable graph).of_ok ha]
  simp [settingTypes, viewportKeys, numberKeys, hg, and_assoc]

/-! ## Documents -/

/-- The sorts of what a document passes through. -/
def documentTypes : List Demand := settingTypes ++ [⟨["expressions", "list"], FalsyOr (Yields HasItemTypes)⟩]

theorem stateItems_eq_ok {fs : Json.Fields} {items : List Json} (h : stateItems fs = .ok items) :
    ((fs.get "expressions").valueOf "list").membersIfAny = .ok items := by
  obtain ⟨expressions, he, hi⟩ := bind_eq_ok.mp h
  obtain ⟨-, rfl⟩ := nested_eq_ok.mp he
  rwa [get_entries] at hi

theorem translate_populated {graphFlags : Bool} {state : Json} :
    Ensures Program.Populated (translate graphFlags state).result := by
  intro p h s hs
  obtain ⟨fs, settings, items, lines, rfl, -, hsettings, -, hl, rfl⟩ := translate_eq_ok.mp h
  rcases List.mem_append.mp (Program.mem_settings.mp hs) with hm | hm
  · obtain ⟨s', hs', he⟩ := List.mem_map.mp hm
    cases he
    exact stateSettings_populated.of_ok hsettings s hs'
  · obtain ⟨i, hi, -⟩ := foldersOf_items hl _ hm
    cases hi

theorem translate_writable {graphFlags : Bool} {state : Json} :
    Ensures (fun p => p.Writable ↔ state.Meets documentTypes) (translate graphFlags state).result := by
  intro p h
  obtain ⟨fs, settings, items, lines, rfl, -, hsettings, hitems, hl, rfl⟩ := translate_eq_ok.mp h
  have hs : (∀ l ∈ settings.map Line.setting, l.Writable) ↔ (Json.obj fs).Meets settingTypes :=
    List.forall_mem_map.trans (stateSettings_writable.of_ok hsettings)
  have hi : (∀ l ∈ lines, l.Writable) ↔ FalsyOr (Yields HasItemTypes) ((fs.get "expressions").valueOf "list") :=
    (foldersOf_writable hl).trans (falsyOr_yields (stateItems_eq_ok hitems)).symm
  rw [Program.Writable, List.forall_mem_append, hs, hi]
  simp [documentTypes]

/-- A document that is translated can be written exactly when what it passes through has its sorts; if it cannot be,
    it is for a value that does not fit, and never for an invariant that is broken. -/
theorem script_of_translated {graphFlags : Bool} {state : Json} {p : Program}
    (h : (translate graphFlags state).result = .ok p) :
    ((∃ t, p.script = .ok t) ↔ state.Meets documentTypes) ∧
      ∀ fault, p.script = .error fault → fault = .noMember ∨ fault = .wrongType :=
  ⟨(Program.script_succeeds (translate_populated.of_ok h)).trans (translate_writable.of_ok h),
    Program.script_misfit (translate_populated.of_ok h)⟩

/-- A table in a folder, the color of its second column a number. -/
theorem script_of_a_number_as_color :
    let bounds : Json := .obj [("xmin", .int 0), ("xmax", .bool true), ("ymin", .int (-1)), ("ymax", .int 1)]
    let state : Json := .obj [("version", .int 8), ("graph", .obj [("viewport", bounds), ("xAxisLabel", .str "t")]),
      ("expressions", .obj [("list", .arr [
        .obj [("type", .str "folder"), ("id", .str "f"), ("title", .arr [])],
        .obj [("type", .str "table"), ("id", .int 2), ("folderId", .str "f"),
          ("columns", .arr [.obj [("color", .str "#000")], .obj [("color", .int 3)]])]])])]
    let columns : List Column := [⟨[], none, [], [.color (.str "#000") none]⟩, ⟨[], none, [], [.color (.int 3) none]⟩]
    let p : Program := ⟨[.setting (.viewport (some ⟨.int 0, .bool true⟩) (some ⟨.int (-1), .int 1⟩)),
      .setting (.axisLabels (.str "t") .null),
      .item ⟨.folder ⟨.arr [], [⟨.table columns, [], [.id "2"]⟩]⟩, [], [.id "f"]⟩]⟩
    (translate true state).result = .ok p ∧ p.script = .error .noMember ∧
      ((∃ t, p.script = .ok t) ↔ state.Meets documentTypes) ∧
      ∀ fault, p.script = .error fault → fault = .noMember ∨ fault = .wrongType := by
  intro bounds state columns p
  have hp : (translate true state).result = .ok p := rfl
  exact ⟨hp, by decide, script_of_translated hp⟩

end GraphScript
