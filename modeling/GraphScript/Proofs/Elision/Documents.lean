/-
  GraphScript.Proofs.Elision.Documents — an elided document is translated into the same program.

  The walk over the items sees the same entries, so it takes the same steps and logs the same; the
  settings are read alike. Where a document is refused, the fault is the same too.

  - `translate_elided`: for every choice of fields that may be left out.
-/
import GraphScript.Proofs.Elision.Items
import GraphScript.State.Translate

namespace GraphScript

open Json Faults

variable {chosen : Choice}

/-! ## Items -/

theorem Entry.ofJson_elided (chosen : Choice) (j : Json) : Entry.ofJson (elidedItem chosen j) = Entry.ofJson j := by
  rw [Entry.ofJson, Entry.ofJson, Item.ofJson_elided]
  cases j with
  | obj fs =>
    have h : Elides (Json.Fields.owner fs) (itemValue chosen) fs _ := .of_elided chosen
    have hi := onlyObjects_itemValue chosen
    simp (disch := decide) only [elidedItem, fields, ok_bind, h.plain hi]
  | _ => rfl

theorem Walk.run_elided (chosen : Choice) (items : List Json) (w : Walk) :
    w.run (items.map (elidedItem chosen)) = w.run items := by
  induction items generalizing w with
  | nil => rfl
  | cons j items ih =>
    rw [List.map_cons, Walk.run, Walk.run, Entry.ofJson_elided]
    cases Entry.ofJson j with
    | error fault => rfl
    | ok e => exact ih (w.step e)

theorem foldersOf_elided (chosen : Choice) (items : List Json) :
    foldersOf (items.map (elidedItem chosen)) = foldersOf items :=
  Walk.run_elided chosen items .start

/-! ## Settings -/

theorem toggleFlags_elided {fs gs : Json.Fields} (h : Elides .graph same fs gs) : toggleFlags gs = toggleFlags fs := by
  have hp : ∀ t ∈ graphToggles, isPlain t.1 = true := by decide
  unfold toggleFlags
  refine List.filterMap_congr fun t ht => ?_
  obtain ⟨key, whenTrue, whenFalse⟩ := t
  simp only [h.plain onlyObjects_same key (hp _ ht)]

theorem flagsSetting_elided (j : Json) : flagsSetting (elidedAt chosen .graph same j) = flagsSetting j :=
  ofFields_elidedAt (fun fs gs h => by rw [toggleFlags_elided h]) j

theorem viewportSetting_elided (j : Json) : viewportSetting (elidedAt chosen .graph same j) = viewportSetting j := by
  have hv : (elidedAt chosen .graph same j).need "viewport" = j.need "viewport" :=
    need_elidedAt "viewport" rfl rfl (fun _ => rfl) j
  rw [viewportSetting, viewportSetting, hv]

theorem axisSettings_elided {fs gs : Json.Fields} (h : Elides .graph same fs gs) : gs.axisSettings = fs.axisSettings := by
  have hi := onlyObjects_same
  have hr : ∀ (setting : Json → Json → Setting) (x y : String), isPlain x = true → isPlain y = true →
      gs.rawSetting setting x y = fs.rawSetting setting x y := by
    intro setting x y hx hy
    rw [Fields.rawSetting, Fields.rawSetting, h.has hi x hx, h.has hi y hy, h.plain hi x hx, h.plain hi y hy]
  simp (disch := decide) only [Fields.axisSettings, hr, Fields.arrowSetting, Fields.axesSetting, Fields.numbersSetting,
    h.plain hi]

theorem graphSettings_elided (j : Json) : graphSettings (elidedAt chosen .graph same j) = graphSettings j := by
  have ha : ∀ viewport : Setting, ((elidedAt chosen .graph same j).fields >>= fun fs => do
      return viewport :: (← fs.axisSettings)) = (j.fields >>= fun fs => do return viewport :: (← fs.axisSettings)) :=
    fun viewport => ofFields_elidedAt (fun fs gs h => by rw [axisSettings_elided h]) j
  simp only [graphSettings, viewportSetting_elided, ha]

/-! ## Documents -/

variable {fs gs : Json.Fields}

/-- A graph that loses all its fields is as good as none. -/
theorem graphOf_elided (h : Elides .state (stateValue chosen) fs gs) :
    graphOf gs = elidedAt chosen .graph same (graphOf fs) := by
  have hg : gs.get "graph" = elidedAt chosen .graph same (fs.get "graph") := h.object "graph" (by decide) (by decide) rfl
  have ho : ∀ ms : Json.Fields, (if (Json.obj ms).truthy then Json.obj ms else .obj []) = .obj ms := by
    intro ms
    cases ms <;> rfl
  rw [graphOf, graphOf, Fields.truthy, Fields.truthy, hg]
  by_cases hj : ∃ ms, fs.get "graph" = .obj ms
  · obtain ⟨ms, hj⟩ := hj
    rw [hj, ho, elidedAt, ho]
  · rw [elidedAt_of_no_object hj]
    split
    · exact (elidedAt_of_no_object hj).symm
    · rfl

theorem stateSettings_elided (h : Elides .state (stateValue chosen) fs gs) (graphFlags : Bool) :
    stateSettings graphFlags gs = stateSettings graphFlags fs := by
  have hs : gs.get "randomSeed" = fs.get "randomSeed" := h.get _ (by decide) (by decide) fun _ => rfl
  have hh : gs.has "randomSeed" = fs.has "randomSeed" := by rw [Fields.has, Fields.has, hs]
  simp only [stateSettings, hs, hh, graphOf_elided h, flagsSetting_elided, graphSettings_elided]

theorem stateItems_elided (h : Elides .state (stateValue chosen) fs gs) :
    stateItems gs = (stateItems fs).map (List.map (elidedItem chosen)) := by
  have he : gs.get "expressions" = elidedAt chosen .expressions (expressionsValue chosen) (fs.get "expressions") :=
    h.object "expressions" (by decide) (by decide) rfl
  rw [stateItems, stateItems, he, nested_elidedAt]
  cases (fs.get "expressions").nested with
  | error fault => rfl
  | ok es =>
    have hl : (Fields.elided chosen .expressions (expressionsValue chosen) es).get "list" =
        (es.get "list").elidedAll (elidedItem chosen) :=
      (Elides.of_elided chosen).object "list" (by decide) (by decide) rfl
    have hm := membersIfAny_elidedAll (f := elidedItem chosen) (fun _ => rfl) (es.get "list")
    rw [← hl] at hm
    exact hm

theorem stateParts_elided (chosen : Choice) (graphFlags : Bool) (state : Json) :
    stateParts graphFlags (state.elided chosen) =
      (stateParts graphFlags state).map fun parts => (parts.1, parts.2.map (elidedItem chosen)) := by
  cases state with
  | obj fs =>
    have h : Elides .state (stateValue chosen) fs _ := .of_elided chosen
    have hv : (Fields.elided chosen .state (stateValue chosen) fs).get "version" = Fields.get fs "version" :=
      h.get _ (by decide) (by decide) fun _ => rfl
    simp only [stateParts, stateFields, elided, elidedAt, fields, hv]
    by_cases hs : isSupported (Fields.get fs "version") = true
    · rw [if_pos hs, if_pos hs, ok_bind, ok_bind, stateSettings_elided h, stateItems_elided h]
      cases stateSettings graphFlags fs with
      | error fault => rfl
      | ok settings => cases stateItems fs <;> rfl
    · rw [if_neg hs, if_neg hs]
      rfl
  | _ => rfl

/-- Whatever is left out of what may be left out, a document is translated into the same program, or refused with
    the same fault, and the same is logged. -/
theorem translate_elided (chosen : Choice) (graphFlags : Bool) (state : Json) :
    translate graphFlags (state.elided chosen) = translate graphFlags state := by
  unfold translate
  rw [stateParts_elided]
  cases stateParts graphFlags state with
  | error fault => rfl
  | ok parts =>
    obtain ⟨settings, items⟩ := parts
    simp only [Except.map, foldersOf_elided, List.length_map]

end GraphScript
