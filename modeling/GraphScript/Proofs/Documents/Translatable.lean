/-
  GraphScript.Proofs.Documents.Translatable — which documents can be translated.

  Four things must be there: the version, the viewport of the graph with its four bounds, and the
  type and the id of every item. Everything else may be missing, and meets a demand where it is not.
  Whether the graph flags are asked for makes no difference.

  - `translate_succeeds`: the documents that are translated.
-/
import GraphScript.Proofs.Documents.Parts
import GraphScript.Proofs.Folders.Gathering
import GraphScript.Proofs.State.Readable

namespace GraphScript

open Faults Json

/-! ## Items -/

theorem foldersOf_succeeds (items : List Json) : Succeeds (foldersOf items).result ↔ ∀ j ∈ items, IsItem j := by
  simp only [← Item.ofJson_succeeds, ← succeeds_mapM]
  constructor
  · rintro ⟨lines, h⟩
    exact Walk.run_translates h
  · rintro ⟨translated, h⟩
    obtain ⟨lines, hl, -⟩ := foldersOf_layout h
    exact ⟨lines, hl⟩

/-! ## Settings -/

/-- A mode of arrows, in either case. -/
def IsArrow : Json → Prop
  | .str s => ∃ mode : ArrowMode, mode.word = Text.lower s
  | _ => False

/-- The keys of the bounds of a viewport. -/
def viewportKeys : List String := ["xmin", "xmax", "ymin", "ymax"]

/-- A graph with a viewport that has its four bounds. -/
def HasViewport (graph : Json) : Prop :=
  graph.HasKey "viewport" ∧ ∀ key ∈ viewportKeys, (graph.valueOf "viewport").HasKey key

def arrowDemands (path : List String) : List Demand :=
  [⟨path ++ ["xAxisArrowMode"], NullOr IsArrow⟩, ⟨path ++ ["yAxisArrowMode"], NullOr IsArrow⟩]

theorem ArrowMode.ofJson_succeeds (j : Json) : Succeeds (ArrowMode.ofJson j) ↔ IsArrow j := by
  cases j with
  | str s =>
    rw [ArrowMode.ofJson, IsArrow]
    split
    · rename_i mode hm
      have hw := List.find?_some hm
      rw [beq_iff_eq] at hw
      simp only [succeeds_ok, true_iff]
      exact ⟨mode, hw⟩
    · rename_i hm
      rw [List.find?_eq_none] at hm
      simp only [not_succeeds_error, false_iff, not_exists]
      intro mode hw
      refine hm mode ?_ (beq_iff_eq.mpr hw)
      cases mode <;> decide
  | _ => simp [ArrowMode.ofJson, IsArrow]

theorem axisSettings_succeeds (graph : Json.Fields) :
    Succeeds graph.axisSettings ↔ (Json.obj graph).Meets (arrowDemands []) := by
  simp only [Json.Fields.axisSettings, Json.Fields.arrowSetting, succeeds_bind, apply_ite, pure_eq, succeeds_ok, ite_self,
    implies_true, and_true, succeeds_and_forall]
  simp [present_succeeds ArrowMode.ofJson_succeeds, arrowDemands]

theorem viewportSetting_succeeds (graph : Json) : Succeeds (viewportSetting graph) ↔ HasViewport graph := by
  simp only [viewportSetting, succeeds_bind, pure_eq, succeeds_ok, implies_true, and_true, succeeds_and_forall,
    need_and_forall]
  simp [need_succeeds, HasViewport, viewportKeys]

theorem graphSettings_succeeds (graph : Json) :
    Succeeds (graphSettings graph) ↔ HasViewport graph ∧ graph.Meets (arrowDemands []) := by
  cases graph with
  | obj gs =>
    simp only [graphSettings, fields, ok_bind, succeeds_bind, pure_eq, succeeds_ok, implies_true, and_true,
      succeeds_and_forall]
    rw [viewportSetting_succeeds, axisSettings_succeeds]
  | _ => simp [graphSettings, viewportSetting, need, HasViewport, HasKey]

theorem flagsSetting_succeeds (graph : Json) : Succeeds (flagsSetting graph) ↔ graph.IsObject := by
  cases graph <;> simp [flagsSetting, fields, IsObject]

theorem stateSettings_succeeds (graphFlags : Bool) (fs : Json.Fields) : Succeeds (stateSettings graphFlags fs) ↔
    HasViewport (fs.get "graph") ∧ (Json.obj fs).Meets (arrowDemands ["graph"]) := by
  have hgraph : Succeeds (graphSettings (graphOf fs)) ↔
      HasViewport (fs.get "graph") ∧ (Json.obj fs).Meets (arrowDemands ["graph"]) := by
    rw [graphSettings_succeeds]
    simp [HasViewport, arrowDemands, valueOf_graphOf, hasKey_graphOf]
  -- A graph that has a viewport is an object, so its flags can be read too.
  have hflags : Succeeds (graphSettings (graphOf fs)) →
      Succeeds (if graphFlags then flagsSetting (graphOf fs) else .ok none) := by
    intro h
    split
    · obtain ⟨⟨⟨gs, _, hg, -⟩, -⟩, -⟩ := (graphSettings_succeeds _).mp h
      exact (flagsSetting_succeeds _).mpr ⟨gs, hg⟩
    · exact succeeds_ok _
  simp only [stateSettings_eq, succeeds_bind, pure_eq, succeeds_ok, implies_true, and_true, succeeds_and_forall]
  rw [and_iff_right_of_imp hflags, hgraph]

/-! ## Documents -/

def documentDemands : List Demand :=
  arrowDemands ["graph"] ++ [⟨["expressions"], FalsyOr IsObject⟩, ⟨["expressions", "list"], FalsyOr (Yields IsItem)⟩]

def IsDocument (state : Json) : Prop :=
  isSupported (state.valueOf "version") = true ∧ HasViewport (state.valueOf "graph") ∧ state.Meets documentDemands

/-- The documents that are translated, with or without graph flags. -/
theorem translate_succeeds (graphFlags : Bool) (state : Json) :
    Succeeds (translate graphFlags state).result ↔ IsDocument state := by
  cases state with
  | obj fs =>
    have hitems : ∀ settings : List Setting, Succeeds (stateItems fs >>= fun items =>
          (foldersOf items).result.map fun lines => Program.mk (settings.map Line.setting ++ lines)) ↔
        FalsyOr IsObject (Json.Fields.get fs "expressions") ∧
          FalsyOr (Yields IsItem) ((Json.Fields.get fs "expressions").valueOf "list") := by
      intro settings
      have hwalk : ∀ members, Succeeds ((foldersOf members).result.map fun lines =>
          Program.mk (settings.map Line.setting ++ lines)) ↔ (∀ m ∈ members, IsItem m) ∧ True := by
        simp [foldersOf_succeeds]
      rw [stateItems, bind_assoc, succeeds_nested, succeeds_membersIfAny hwalk]
      simp
    have hrest : Succeeds (stateSettings graphFlags fs >>= fun settings => stateItems fs >>= fun items =>
          (foldersOf items).result.map fun lines => Program.mk (settings.map Line.setting ++ lines)) ↔
        HasViewport (Json.Fields.get fs "graph") ∧ (Json.obj fs).Meets documentDemands := by
      rw [succeeds_bind]
      simp only [hitems]
      rw [succeeds_and_forall, stateSettings_succeeds]
      simp [documentDemands, and_assoc]
    rw [translate_result, stateParts, IsDocument, valueOf_obj, valueOf_obj, ← hrest]
    by_cases hv : isSupported (Json.Fields.get fs "version") = true
    · rw [stateFields_eq_ok.mpr ⟨rfl, hv⟩]
      simp [hv, bind_assoc]
    · simp [stateFields, fields, hv]
  | _ => simp [translate_result, stateParts, stateFields, fields, IsDocument, valueOf, isSupported, equals, alike, amount?]

end GraphScript
