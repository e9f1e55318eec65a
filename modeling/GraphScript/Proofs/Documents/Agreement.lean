/-
  GraphScript.Proofs.Documents.Agreement — the order of keys and keys that are not read do not count.

  Documents that agree have the same program or the same fault, and the same log. A graph is read for
  its toggles only where they are asked for, and the folder of a folder is not read at all: so the
  entries of two walks may differ in it, and the walks do not.

  One object is compared as it is, the parameters of a regression. They stand in the program in the
  order of the document (`Item.parameters`), so another order makes another program.

  - `only_what_is_read_counts`
-/
import GraphScript.Proofs.Documents.Translatable
import GraphScript.Proofs.Folders.Conservation
import GraphScript.Proofs.State.Agreement
import GraphScript.Proofs.State.Sources

namespace GraphScript

open Faults Json

/-! ## Settings -/

/-- The keys of a graph that are read for its axes. -/
def axisKeys : List String :=
  ["xAxisMinorSubdivisions", "yAxisMinorSubdivisions", "xAxisStep", "yAxisStep", "xAxisArrowMode", "yAxisArrowMode",
    "xAxisLabel", "yAxisLabel", "showXAxis", "showYAxis", "xAxisNumbers", "yAxisNumbers", "polarNumbers"]

def graphKeys (graphFlags : Bool) : List String := axisKeys ++ if graphFlags then graphToggles.map Prod.fst else []

def GraphAgree (graphFlags : Bool) : Json → Json → Prop :=
  AgreeOn (graphKeys graphFlags) [("viewport", AgreeOn viewportKeys [])]

section

variable {graphFlags : Bool} {v w : Json} {fs gs : Json.Fields} {rules : List (String × (Json → Json → Prop))}

theorem viewportSetting_agree (h : GraphAgree graphFlags v w) : viewportSetting w = viewportSetting v := by
  rcases h with rfl | ⟨fs, gs, rfl, rfl, h⟩
  · rfl
  · have hviewport := h.nested _ (List.mem_singleton_self _)
    unfold viewportSetting
    rw [Json.need, Json.need]
    dsimp only at hviewport ⊢
    generalize List.lookup "viewport" fs = x, List.lookup "viewport" gs = y at hviewport
    cases hviewport with
    | none => rfl
    | @some a b hab => simp (disch := decide) only [ok_bind, hab.need]

theorem axisSettings_agree (h : Fields.Agree (graphKeys graphFlags) rules fs gs) :
    gs.axisSettings = fs.axisSettings := by
  have haxes : Fields.Alike axisKeys [] fs gs := h.alike fun key hk => by
    rw [List.append_nil] at hk
    exact List.mem_append_left _ hk
  simp (disch := decide) only [Fields.axisSettings, Fields.arrowSetting, Fields.axesSetting, Fields.numbersSetting,
    Fields.rawSetting, haxes.value, haxes.has]

theorem graphSettings_agree (h : GraphAgree graphFlags v w) : graphSettings w = graphSettings v := by
  unfold graphSettings
  rw [viewportSetting_agree h]
  refine congrArg (viewportSetting v >>= ·) (funext fun viewport => ?_)
  exact h.fields_bind (f := fun graph => do return viewport :: (← graph.axisSettings)) fun fs gs h => by
    rw [axisSettings_agree h]

theorem flagsSetting_agree (h : GraphAgree true v w) : flagsSetting w = flagsSetting v := by
  refine h.fields_bind fun fs gs h => ?_
  have htoggles : toggleFlags gs = toggleFlags fs := by
    refine List.filterMap_congr fun toggle htoggle => ?_
    have hkey : toggle.1 ∈ graphKeys true := List.mem_append_right _ (List.mem_map_of_mem htoggle)
    dsimp only
    rw [h.value hkey]
  rw [htoggles]

end

/-! ## Documents -/

/-- Documents that agree on all that is read of them, with graph flags or without. -/
def DocumentsAgree (graphFlags : Bool) : Json → Json → Prop :=
  AgreeOn ["version", "randomSeed"] [("graph", GraphAgree graphFlags),
    ("expressions", AgreeOn [] [("list", ListAlike (ObjectAlike ItemAgree))])]

section

variable {graphFlags : Bool} {v w : Json} {fs gs : Json.Fields}
  (h : Fields.Agree ["version", "randomSeed"] [("graph", GraphAgree graphFlags),
    ("expressions", AgreeOn [] [("list", ListAlike (ObjectAlike ItemAgree))])] fs gs)

include h

theorem graphOf_agree : GraphAgree graphFlags (graphOf fs) (graphOf gs) := by
  have hgraph : GraphAgree graphFlags (fs.get "graph") (gs.get "graph") := h.get (by simp) (.inl rfl)
  -- An object without fields stands for itself.
  have hobject (graph : Json.Fields) {fields : Json.Fields} (hg : graph.get "graph" = .obj fields) :
      graphOf graph = .obj fields := by
    rw [graphOf, Fields.truthy, hg]
    cases fields <;> rfl
  rcases hgraph with heq | ⟨fields, fields', hf, hg, hagree⟩
  · rw [graphOf, graphOf, Fields.truthy, Fields.truthy, heq]
    exact .inl rfl
  · rw [hobject fs hf, hobject gs hg]
    exact .inr ⟨fields, fields', rfl, rfl, hagree⟩

theorem stateSettings_agree : stateSettings graphFlags gs = stateSettings graphFlags fs := by
  have hgraph := graphOf_agree h
  have hseed : gs.get "randomSeed" = fs.get "randomSeed" := h.value (by decide)
  unfold stateSettings
  rw [Fields.has, Fields.has, hseed, graphSettings_agree hgraph]
  cases graphFlags with
  | true => rw [flagsSetting_agree hgraph]
  | false => rfl

theorem stateItems_agree :
    Related (List.Forall₂ (ObjectAlike ItemAgree)) (stateItems fs) (stateItems gs) := by
  have hexpressions : AgreeOn [] [("list", ListAlike (ObjectAlike ItemAgree))] (fs.get "expressions")
      (gs.get "expressions") := h.get (by simp) (.inl rfl)
  have hsame (x : Except Fault (List Json)) : Related (List.Forall₂ (ObjectAlike ItemAgree)) x x :=
    .refl (fun items => List.forall₂_same.mpr fun _ _ => .inl rfl) x
  have hobject (fields : Json.Fields) : (Json.obj fields).nested = .ok fields :=
    nested_eq_ok.mpr ⟨fun _ => ⟨fields, rfl⟩, rfl⟩
  unfold stateItems
  rcases hexpressions with heq | ⟨es, es', hes, hes', hagree⟩
  · rw [heq]
    exact hsame _
  · rw [hes, hes', hobject, hobject, ok_bind, ok_bind]
    have hlist : ListAlike (ObjectAlike ItemAgree) (Fields.get es "list") (Fields.get es' "list") :=
      hagree.get (List.mem_singleton_self _) (.inl rfl)
    have hmembers (items : List Json) : (Json.arr items).membersIfAny = .ok items := by
      cases items <;> rfl
    rcases hlist with heq | ⟨items, items', hi, hi', hitems⟩
    · rw [heq]
      exact hsame _
    · rw [hi, hi', hmembers, hmembers]
      exact .ok hitems

end

theorem stateParts_agree {graphFlags : Bool} {v w : Json} (h : DocumentsAgree graphFlags v w) :
    Related (fun p q => q.1 = p.1 ∧ List.Forall₂ (ObjectAlike ItemAgree) p.2 q.2) (stateParts graphFlags v)
      (stateParts graphFlags w) := by
  rcases h with rfl | ⟨fs, gs, rfl, rfl, h⟩
  · exact .refl (fun p => ⟨rfl, List.forall₂_same.mpr fun _ _ => .inl rfl⟩) _
  · have hversion : Fields.get gs "version" = Fields.get fs "version" := h.value (by decide)
    simp only [stateParts, stateFields, fields, hversion]
    split
    · rw [ok_bind, ok_bind, stateSettings_agree h]
      exact Related.behind _ fun settings => (stateItems_agree h).bind fun _ _ hitems => .ok ⟨rfl, hitems⟩
    · exact .error _

/-! ## Walks -/

/-- Entries that a walk does not tell apart. -/
structure Entry.Agree (d e : Entry) : Prop where
  id : e.id = d.id
  item : e.item = d.item
  folderId : ∀ l, d.item.affix = .leaf l → e.folderId = d.folderId

theorem Entry.ofJson_agree {j k : Json} (h : ObjectAlike ItemAgree j k) :
    Related Entry.Agree (Entry.ofJson j) (Entry.ofJson k) := by
  have hitem := Item.ofJson_agree h
  rcases h with rfl | ⟨fs, gs, rfl, rfl, h⟩
  · exact .refl (fun _ => ⟨rfl, rfl, fun _ _ => rfl⟩) _
  · unfold Entry.ofJson
    rw [hitem]
    cases hi : Item.ofJson (.obj fs) with
    | error fault => exact .error fault
    | ok item =>
      refine .ok ⟨h.shared.value (by decide), rfl, fun l hl => ?_⟩
      obtain ⟨_, _, _, kind, affix, _, hfs, -, hkind, ha, -, rfl⟩ := Item.ofJson_eq_ok hi
      cases hfs
      refine (h.own kind hkind).value ?_
      cases kind with
      | folder =>
        cases ha
        cases hl
      | table | simulation | expression | image | text => simp [ItemKind.keys]

namespace Walk

theorem step_agree {d e : Entry} (h : d.Agree e) (w : Walk) : w.step e = w.step d := by
  obtain ⟨id, folderId, item⟩ := d
  obtain ⟨id', folderId', item'⟩ := e
  obtain ⟨rfl, rfl, hfolder⟩ := h
  cases ha : item'.affix with
  | folder f => simp only [step, ha]
  | leaf l =>
    obtain rfl := hfolder l ha
    rfl

/-- Walks over items that agree say the same at every step. -/
theorem run_agree (w : Walk) {items items' : List Json} (h : List.Forall₂ (ObjectAlike ItemAgree) items items') :
    w.run items' = w.run items := by
  induction h generalizing w with
  | nil => rfl
  | @cons j k _ _ hjk _ ih =>
    have hentry := Entry.ofJson_agree hjk
    rw [run, run]
    generalize Entry.ofJson j = d, Entry.ofJson k = e at hentry
    cases hentry with
    | ok he =>
      dsimp only
      rw [step_agree he, ih]
    | error fault => rfl

end Walk

/-- Documents that agree have the same outcome. -/
theorem translate_agree {graphFlags : Bool} {v w : Json} (h : DocumentsAgree graphFlags v w) :
    translate graphFlags w = translate graphFlags v := by
  have hparts := stateParts_agree h
  unfold translate
  generalize stateParts graphFlags v = p, stateParts graphFlags w = q at hparts
  cases hparts with
  | error fault => rfl
  | @ok p q hpq =>
    obtain ⟨settings, items⟩ := p
    obtain ⟨settings', items'⟩ := q
    obtain ⟨rfl, hitems⟩ := hpq
    dsimp only
    rw [foldersOf, foldersOf, Walk.run_agree _ hitems, hitems.length_eq]

/-! ## The order that counts -/

/-- What a regression says of its parameters. -/
def OptionGroup.parameters : OptionGroup → Json.Fields
  | .regression parameters _ _ => parameters.map fun p => (p.parameter.text, p.value)
  | _ => []

/-- The regression parameters of an item. -/
def Item.parameters (i : Item Affix) : Json.Fields := i.options.flatMap OptionGroup.parameters

/-- The entries that an item has for the parameters of a regression; only those of an expression count. -/
def Json.parameters (j : Json) : Json.Fields :=
  if ItemKind.ofJson? (j.valueOf "type") = some .expression then (j.valueOf "regressionParameters").entries else []

section

variable {fs : Json.Fields} {kinds : List Kind} {os : List (Option OptionGroup)} {gs : List OptionGroup}

/-- Groups of other kinds have none. -/
theorem parameters_eq_nil (h : List.Forall₂ fs.MayGive kinds os) (hkinds : .regressionOption ∉ kinds) :
    (os.filterMap id).flatMap OptionGroup.parameters = [] := by
  refine List.flatMap_eq_nil_iff.mpr fun g hg => ?_
  obtain ⟨k, hk, hgives⟩ := Json.Fields.gives_of_mem h g hg
  cases g with
  | regression _ _ _ =>
    cases hgives
    exact absurd hk hkinds
  | _ => rfl

/-- The group of a regression has all of them in their order; without the group there are none. -/
theorem regression_parameters {o : Option OptionGroup} (h : fs.regression = .ok o) :
    o.toList.flatMap OptionGroup.parameters = (fs.get "regressionParameters").entries := by
  cases o with
  | some g =>
    cases Json.Fields.mayGive_some.mp (Json.Fields.regression_given _ h)
    simp [OptionGroup.parameters, Function.comp_def]
  | none =>
    have hfalse : (fs.get "regressionParameters").truthy = false := by
      unfold Fields.regression at h
      split at h
      · rename_i habsent
        simp only [Bool.and_eq_true, Bool.not_eq_true'] at habsent
        exact habsent.1.1
      · obtain ⟨parameters, -, h⟩ := bind_eq_ok.mp h
        dsimp only at h
        split at h
        · obtain ⟨residuals, -, h⟩ := bind_eq_ok.mp h
          cases h
        · cases h
    exact ((Json.Fields.entries_eq_nil fun htrue => absurd (hfalse.symm.trans htrue) nofun).mpr hfalse).symm

theorem expressionGroups_parameters (h : fs.expressionGroups = .ok gs) :
    gs.flatMap OptionGroup.parameters = (fs.get "regressionParameters").entries := by
  obtain ⟨before, regression, after, rfl, hbefore, hregression, hafter⟩ := Json.Fields.expressionGroups_split h
  have hmiddle : (regression :: after).filterMap id = regression.toList ++ after.filterMap id := by
    cases regression <;> rfl
  rw [List.filterMap_append, hmiddle, List.flatMap_append, List.flatMap_append, parameters_eq_nil hbefore (by decide),
    parameters_eq_nil hafter (by decide), regression_parameters hregression, List.nil_append, List.append_nil]

end

/-- The parameters of an item are those of the document, in the same order. -/
theorem Item.ofJson_parameters {j : Json} {i : Item Affix} (h : Item.ofJson j = .ok i) :
    i.parameters = j.parameters := by
  obtain ⟨fs, id, styling, kind, affix, groups, rfl, hs, hkind, -, hg, rfl⟩ := Item.ofJson_eq_ok h
  obtain ⟨os, rfl, hos⟩ := Json.Fields.styling_given hs
  have hgroups : groups.flatMap OptionGroup.parameters = (Json.obj fs).parameters := by
    rw [Json.parameters, valueOf_obj, valueOf_obj, hkind]
    by_cases hexpression : kind = .expression
    · subst hexpression
      rw [if_pos rfl, expressionGroups_parameters hg]
    · obtain ⟨own, rfl, hown⟩ := ItemKind.groups_given hg
      rw [if_neg fun h => hexpression (Option.some.inj h), parameters_eq_nil hown]
      cases kind with
      | expression => exact absurd rfl hexpression
      | _ => decide
  rw [← hgroups, Item.parameters, List.cons_append, List.flatMap_cons, List.flatMap_append,
    parameters_eq_nil hos (by decide)]
  rfl

/-- The lists of parameters in a program are those of its document, each in its own order. -/
theorem translate_parameters {graphFlags : Bool} {state : Json} {p : Program} {settings : List Setting}
    {items : List Json} (hp : (translate graphFlags state).result = .ok p)
    (hparts : stateParts graphFlags state = .ok (settings, items)) :
    ((p.lines.flatMap Line.parts).map Item.parameters).Perm (items.map Json.parameters) := by
  rw [translate_result, hparts, ok_bind, map_eq_ok] at hp
  obtain ⟨lines, hl, rfl⟩ := hp
  obtain ⟨translated, ht⟩ := Walk.run_translates hl
  have hsettings : (settings.map Line.setting).flatMap Line.parts = [] :=
    List.flatMap_eq_nil_iff.mpr fun l hl => by
      obtain ⟨s, -, rfl⟩ := List.mem_map.mp hl
      rfl
  have hitems : translated.map Item.parameters = items.map Json.parameters := by
    have hboth := mapM_eq_ok.mp ht
    rw [← List.forall₂_eq_eq_eq, List.forall₂_map_left_iff, List.forall₂_map_right_iff]
    exact hboth.flip.imp fun i j hij => Item.ofJson_parameters hij
  rw [List.flatMap_append, hsettings, List.nil_append, ← hitems]
  exact (foldersOf_perm ht hl).map _

/-- Documents that agree on what is read of them have the same program or the same fault, and the same log: the order
    of keys makes no difference, and neither do other keys and their values. The one order that counts is that of
    regression parameters, and it is kept: every item has those of its document as they stand there, and so do all items
    of a program. -/
theorem only_what_is_read_counts (graphFlags : Bool) (v w : Json) :
    (DocumentsAgree graphFlags v w → translate graphFlags w = translate graphFlags v) ∧
    (∀ j i, Item.ofJson j = .ok i → i.parameters = j.parameters) ∧
    ∀ p settings items, (translate graphFlags v).result = .ok p → stateParts graphFlags v = .ok (settings, items) →
      ((p.lines.flatMap Line.parts).map Item.parameters).Perm (items.map Json.parameters) :=
  ⟨translate_agree, fun _ _ => Item.ofJson_parameters, fun _ _ _ => translate_parameters⟩

/-- Two documents whose objects have their keys in another order, and keys that are not read: graph flags that are not
    asked for, a slider and a width of a note, a parametric domain. -/
theorem only_what_is_read_counts_of_a_note_and_a_fit :
    let note := Json.obj [("type", .str "text"), ("id", .str "1"), ("text", .str "a")]
    let note' := Json.obj [("slider", .int 3), ("text", .str "a"), ("id", .str "1"), ("type", .str "text"), ("width", .null)]
    let parameters := [("b", Json.int 1), ("a", .int 2)]
    let fit := Json.obj [("type", .str "expression"), ("id", .str "2"), ("latex", .str "y"),
      ("slider", .obj [("min", .int 0), ("max", .int 5)]), ("regressionParameters", .obj parameters)]
    let fit' := Json.obj [("regressionParameters", .obj parameters), ("parametricDomain", .obj [("min", .int 1)]),
      ("slider", .obj [("max", .int 5), ("loop", .int 1), ("min", .int 0)]), ("latex", .str "y"), ("id", .str "2"),
      ("type", .str "expression")]
    let v := Json.obj [("version", .int supportedVersion),
      ("graph", .obj [("viewport", .obj [("xmin", .int 0), ("xmax", .int 1), ("ymin", .int 0), ("ymax", .int 1)]),
        ("xAxisStep", .int 2)]),
      ("expressions", .obj [("list", .arr [note, fit])])]
    let w := Json.obj [("expressions", .obj [("ticker", .null), ("list", .arr [note', fit'])]),
      ("graph", .obj [("degreeMode", .bool true), ("xAxisStep", .int 2),
        ("viewport", .obj [("ymin", .int 0), ("xmax", .int 1), ("xmin", .int 0), ("ymax", .int 1)])]),
      ("version", .int supportedVersion)]
    DocumentsAgree false v w ∧ translate false w = translate false v ∧
      (∃ i, Item.ofJson fit = .ok i ∧ i.parameters = parameters) ∧
      ∃ p, (translate false v).result = .ok p ∧
        ((p.lines.flatMap Line.parts).map Item.parameters).Perm [[], parameters] := by
  intro note note' parameters fit fit' v w
  have hslider : AgreeOn sliderKeys [] (.obj [("min", .int 0), ("max", .int 5)])
      (.obj [("max", .int 5), ("loop", .int 1), ("min", .int 0)]) :=
    .inr ⟨_, _, rfl, rfl, (Fields.agree_iff_perm (by decide) (by decide)).mpr (by decide +kernel)⟩
  have hviewport : AgreeOn viewportKeys []
      (.obj [("xmin", .int 0), ("xmax", .int 1), ("ymin", .int 0), ("ymax", .int 1)])
      (.obj [("ymin", .int 0), ("xmax", .int 1), ("xmin", .int 0), ("ymax", .int 1)]) :=
    .inr ⟨_, _, rfl, rfl, (Fields.agree_iff_perm (by decide) (by decide)).mpr (by decide +kernel)⟩
  have hnote : ObjectAlike ItemAgree note note' := by
    refine .inr ⟨_, _, rfl, rfl, ⟨by decide +kernel, List.forall_mem_nil _⟩, fun kind hkind => ?_⟩
    cases hkind
    exact ⟨by decide +kernel, List.forall_mem_nil _⟩
  have hfit : ObjectAlike ItemAgree fit fit' := by
    refine .inr ⟨_, _, rfl, rfl, ⟨by decide +kernel, List.forall_mem_nil _⟩, fun kind hkind => ?_⟩
    cases hkind
    refine ⟨by decide +kernel, ?_⟩
    simp only [ItemKind.rules, List.forall_mem_cons]
    exact ⟨.none, .some hslider, .none, .none, .none, .none, List.forall_mem_nil _⟩
  have hlist : AgreeOn [] [("list", ListAlike (ObjectAlike ItemAgree))] (.obj [("list", .arr [note, fit])])
      (.obj [("ticker", .null), ("list", .arr [note', fit'])]) :=
    .inr ⟨_, _, rfl, rfl, List.forall_mem_nil _, List.forall_mem_singleton.mpr
      (.some (.inr ⟨_, _, rfl, rfl, .cons hnote (.cons hfit .nil)⟩))⟩
  have hgraph : GraphAgree false
      (.obj [("viewport", .obj [("xmin", .int 0), ("xmax", .int 1), ("ymin", .int 0), ("ymax", .int 1)]),
        ("xAxisStep", .int 2)])
      (.obj [("degreeMode", .bool true), ("xAxisStep", .int 2),
        ("viewport", .obj [("ymin", .int 0), ("xmax", .int 1), ("xmin", .int 0), ("ymax", .int 1)])]) :=
    .inr ⟨_, _, rfl, rfl, by decide +kernel, List.forall_mem_singleton.mpr (.some hviewport)⟩
  have hdocument : DocumentsAgree false v w :=
    .inr ⟨_, _, rfl, rfl, by decide +kernel, List.forall_mem_cons.mpr ⟨.some hgraph,
      List.forall_mem_singleton.mpr (.some hlist)⟩⟩
  obtain ⟨hsame, hkept, hall⟩ := only_what_is_read_counts false v w
  obtain ⟨i, hi⟩ : Succeeds (Item.ofJson fit) := ⟨_, rfl⟩
  obtain ⟨settings, hparts⟩ : ∃ settings, stateParts false v = .ok (settings, [note, fit]) := ⟨_, rfl⟩
  obtain ⟨p, hp⟩ : Succeeds (translate false v).result := ⟨_, rfl⟩
  exact ⟨hdocument, hsame hdocument, ⟨i, hi, hkept fit i hi⟩, p, hp, hall p settings _ hp hparts⟩

end GraphScript
