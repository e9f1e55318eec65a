/-
  GraphScript.Proofs.Documents.Parts — what a document is translated into, part by part.

  The settings and the lines of the items are found apart from each other. Where the graph of a
  document is not truthy it has the fields that an empty one has, so in a statement about fields the
  two need not be told apart.

  - `translate_eq_ok`: the parts of a translation that succeeds.
-/
import GraphScript.Proofs.Items
import GraphScript.State.Translate

namespace GraphScript

open Faults Json

theorem translate_result (graphFlags : Bool) (state : Json) : (translate graphFlags state).result = (do
    let parts ← stateParts graphFlags state
    (foldersOf parts.2).result.map fun lines => ⟨parts.1.map Line.setting ++ lines⟩) := by
  unfold translate
  cases stateParts graphFlags state with
  | error fault => rfl
  | ok parts =>
    obtain ⟨settings, items⟩ := parts
    dsimp only
    cases hl : (foldersOf items).result <;> simp [hl, Except.map]

theorem stateFields_eq_ok {state : Json} {fs : Json.Fields} :
    stateFields state = .ok fs ↔ state = .obj fs ∧ isSupported (fs.get "version") = true := by
  cases state with
  | obj gs =>
    by_cases hv : isSupported (Json.Fields.get gs "version") = true
    · simp only [stateFields, fields, hv, if_true, Except.ok.injEq, Json.obj.injEq]
      constructor
      · rintro rfl
        exact ⟨rfl, hv⟩
      · exact And.left
    · simp only [stateFields, fields, hv]
      constructor
      · intro h
        cases h
      · rintro ⟨h, h'⟩
        cases h
        exact absurd h' hv
  | _ => simp [stateFields, fields]

/-- What a document is translated into, part by part. -/
theorem translate_eq_ok {graphFlags : Bool} {state : Json} {p : Program} :
    (translate graphFlags state).result = .ok p ↔
      ∃ (fs : Json.Fields) (settings : List Setting) (items : List Json) (lines : List Line), state = .obj fs ∧
        isSupported (fs.get "version") = true ∧ stateSettings graphFlags fs = .ok settings ∧
        stateItems fs = .ok items ∧ (foldersOf items).result = .ok lines ∧
        p = ⟨settings.map Line.setting ++ lines⟩ := by
  simp only [translate_result, stateParts, bind_eq_ok, map_eq_ok, stateFields_eq_ok, pure_eq, Except.ok.injEq]
  constructor
  · rintro ⟨_, ⟨fs, ⟨rfl, hv⟩, settings, hs, items, hi, rfl⟩, lines, hl, rfl⟩
    exact ⟨fs, settings, items, lines, rfl, hv, hs, hi, hl, rfl⟩
  · rintro ⟨fs, settings, items, lines, rfl, hv, hs, hi, hl, rfl⟩
    exact ⟨_, ⟨fs, ⟨rfl, hv⟩, settings, hs, items, hi, rfl⟩, lines, hl, rfl⟩

/-! ## Settings -/

/-- A graph that is not truthy has the fields that an empty one has. -/
theorem valueOf_graphOf (fs : Json.Fields) (key : String) : (graphOf fs).valueOf key = (fs.get "graph").valueOf key := by
  rw [graphOf]
  split
  · rfl
  · rename_i ht
    rw [Json.Fields.truthy] at ht
    cases hg : fs.get "graph" with
    | obj gs =>
      cases gs with
      | nil => rfl
      | cons _ _ =>
        rw [hg] at ht
        exact absurd rfl ht
    | _ => rfl

theorem hasKey_graphOf (fs : Json.Fields) (key : String) : (graphOf fs).HasKey key ↔ (fs.get "graph").HasKey key := by
  rw [graphOf]
  split
  · rfl
  · rename_i ht
    rw [Json.Fields.truthy] at ht
    have hno : ∀ gs : Json.Fields, fs.get "graph" = .obj gs → gs = [] := by
      intro gs hg
      rw [hg] at ht
      cases gs with
      | nil => rfl
      | cons _ _ => exact absurd rfl ht
    constructor
    · rintro ⟨gs, v, hg, hv⟩
      cases hg
      cases hv
    · rintro ⟨gs, v, hg, hv⟩
      rw [hno gs hg] at hv
      cases hv

/-- The seed, the graph flags where they are asked for, and what the graph has. -/
theorem stateSettings_eq (graphFlags : Bool) (fs : Json.Fields) : stateSettings graphFlags fs =
    ((if graphFlags then flagsSetting (graphOf fs) else .ok none) >>= fun flags =>
      graphSettings (graphOf fs) >>= fun settings =>
        pure ((if fs.has "randomSeed" then some (Setting.seed (fs.get "randomSeed")) else none).toList
          ++ flags.toList ++ settings)) := by
  cases graphFlags <;> rfl

theorem need_eq_ok {j v : Json} {key : String} (h : j.need key = .ok v) : j.valueOf key = v := by
  cases j with
  | obj fs =>
    simp only [need] at h
    split at h
    · rename_i w hw
      cases h
      simp [valueOf, Fields.get, hw]
    · cases h
  | _ => cases h

/-- The seed, unless it is null. -/
def seedOf (fs : Json.Fields) : List Setting := if fs.get "randomSeed" = .null then [] else [.seed (fs.get "randomSeed")]

/-- One of the toggles of the graph is literally true or false. -/
def hasToggle (graph : Json.Fields) : Bool :=
  graphToggles.any fun toggle => match graph.get toggle.1 with | .bool _ => true | _ => false

/-- The flags of the graph, where they are asked for and it has any. -/
def flagsOf (graphFlags : Bool) (graph : Json.Fields) : List Setting :=
  if graphFlags && hasToggle graph then [.flags (toggleFlags graph)] else []

theorem toggleFlags_eq_nil (graph : Json.Fields) : toggleFlags graph = [] ↔ hasToggle graph = false := by
  rw [toggleFlags, List.filterMap_eq_nil_iff, hasToggle, List.any_eq_false]
  refine forall₂_congr fun toggle _ => ?_
  cases hv : graph.get toggle.1 <;> simp [hv]

/-- The flags of a graph are words. -/
theorem flagsOf_words {graphFlags : Bool} {graph : Json.Fields} {s : Setting} (h : s ∈ flagsOf graphFlags graph) :
    ∃ flags, s = .flags flags ∧ ∀ f ∈ flags, ∃ w, f = .word w := by
  unfold flagsOf at h
  split at h
  · refine ⟨_, List.mem_singleton.mp h, fun f hf => ?_⟩
    obtain ⟨⟨key, whenTrue, whenFalse⟩, -, hf⟩ := List.mem_filterMap.mp hf
    dsimp only at hf
    split at hf
    · exact ⟨_, (Option.some.inj hf).symm⟩
    · cases hf
  · cases h

/-- The viewport with its four bounds. -/
def viewportOf (graph : Json.Fields) : Setting :=
  let viewport := graph.get "viewport"
  .viewport (some ⟨viewport.valueOf "xmin", viewport.valueOf "xmax"⟩)
    (some ⟨viewport.valueOf "ymin", viewport.valueOf "ymax"⟩)

theorem viewportSetting_eq_ok {graph : Json.Fields} {s : Setting} (h : viewportSetting (.obj graph) = .ok s) :
    s = viewportOf graph := by
  simp only [viewportSetting, bind_eq_ok, pure_eq, Except.ok.injEq] at h
  obtain ⟨viewport, hv, xmin, h1, xmax, h2, ymin, h3, ymax, h4, rfl⟩ := h
  have hv : graph.get "viewport" = viewport := need_eq_ok hv
  rw [viewportOf, hv, need_eq_ok h1, need_eq_ok h2, need_eq_ok h3, need_eq_ok h4]

theorem flagsSetting_obj (graphFlags : Bool) (graph : Json.Fields) :
    (if graphFlags then flagsSetting (.obj graph) else .ok none).map Option.toList = .ok (flagsOf graphFlags graph) := by
  cases graphFlags with
  | false => rfl
  | true =>
    by_cases ht : toggleFlags graph = []
    · simp [flagsSetting, fields, flagsOf, ht, (toggleFlags_eq_nil graph).mp ht, Except.map]
    · have hh : hasToggle graph = true := by rwa [← Bool.not_eq_false, ← toggleFlags_eq_nil]
      simp [flagsSetting, fields, flagsOf, ht, hh, Except.map]

/-- The settings that a document is translated into. -/
theorem stateSettings_eq_ok {graphFlags : Bool} {fs : Json.Fields} {settings : List Setting}
    (h : stateSettings graphFlags fs = .ok settings) : ∃ (graph : Json.Fields) (axes : List Setting),
      fs.get "graph" = .obj graph ∧ graph.axisSettings = .ok axes ∧
      settings = seedOf fs ++ flagsOf graphFlags graph ++ viewportOf graph :: axes := by
  simp only [stateSettings_eq, graphSettings, bind_eq_ok, pure_eq, Except.ok.injEq] at h
  obtain ⟨flags, hflags, _, ⟨viewport, hv, graph, hg, axes, ha, rfl⟩, rfl⟩ := h
  rw [fields_eq_ok] at hg
  rw [hg] at hv hflags
  refine ⟨graph, axes, ?_, ha, ?_⟩
  · -- An empty graph has no viewport.
    unfold graphOf at hg
    split at hg
    · exact hg
    · cases hg
      cases hv
  · have hseed : (if fs.has "randomSeed" then some (Setting.seed (fs.get "randomSeed")) else none).toList = seedOf fs := by
      by_cases hn : fs.get "randomSeed" = .null
      · simp [seedOf, Fields.has, hn, isNull]
      · simp [seedOf, Fields.has_iff.mpr hn, hn]
    have hflagsOf := flagsSetting_obj graphFlags graph
    rw [hflags] at hflagsOf
    rw [hseed, viewportSetting_eq_ok hv, Except.ok.inj hflagsOf]

end GraphScript
