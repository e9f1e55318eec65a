/-
  GraphScript.Proofs.Documents.Optional — no optional field is secretly required.

  A document that is converted to a script is still converted when keys are deleted from any of its
  objects, as long as the version, the viewport of the graph with its bounds, and the type and the id
  of each item that is left stay where they are (`Prunes`). For each demand on a document but those
  is met by null, and stays met by what is left of a value that meets it.

  - `convert_succeeds`: the documents that are converted.
  - `script_of_pruned`: what is left of one is converted too.
-/
import GraphScript.Proofs.Documents.Declared
import GraphScript.Proofs.Json.Thinned

namespace GraphScript

open Faults Json

/-! ## Items -/

theorem rule_optional : ∀ d ∈ ruleDemands, d.Optional := by simp [ruleDemands]

@[simp] theorem lasts_rule : Lasts IsRule :=
  fun j j' h hr => ⟨lasts_object j j' h hr.1, h.meets rule_optional hr.2⟩

theorem styling_optional : ∀ d ∈ stylingDemands, d.Optional := by simp [stylingDemands, Demand.expressions]

theorem column_optional : ∀ d ∈ columnDemands, d.Optional := by
  simpa [columnDemands, Demand.expressions] using styling_optional

@[simp] theorem lasts_column : Lasts IsColumn :=
  fun j j' h hc => ⟨lasts_object j j' h hc.1, h.meets column_optional hc.2⟩

theorem expression_optional : ∀ d ∈ expressionDemands, d.Optional := by
  simp [expressionDemands, Demand.bounds, Demand.expressions]

theorem ItemKind.demands_optional (kind : ItemKind) : ∀ d ∈ kind.demands, d.Optional := by
  cases kind with
  | expression => simpa [demands, Demand.expressions] using expression_optional
  | _ => simp [demands, Demand.expressions]

/-- These keys, if they were there, still are. -/
def Keeps (keys : List String) (j j' : Json) : Prop := ∀ key ∈ keys, j.HasKey key → j'.HasKey key

instance (keys : List String) (j j' : Json) : Decidable (Keeps keys j j') :=
  inferInstanceAs (Decidable (∀ key ∈ keys, _))

/-- A type that is left is the one that there was. -/
theorem Thinned.type_iff {j j' : Json} (h : Thinned j j') (hk : j'.HasKey "type") {kind : ItemKind} :
    ItemKind.ofJson? (j'.valueOf "type") = some kind ↔ ItemKind.ofJson? (j.valueOf "type") = some kind := by
  obtain ⟨-, ht⟩ := h.valueOf_of_hasKey hk
  generalize j.valueOf "type" = v at *
  generalize j'.valueOf "type" = w at *
  cases ht with
  | same => exact Iff.rfl
  | arr _ | obj _ _ => exact Iff.rfl

theorem hasKey_type {j : Json} {kind : ItemKind} (h : ItemKind.ofJson? (j.valueOf "type") = some kind) :
    j.HasKey "type" := by
  refine hasKey_of_ne_null fun hn => ?_
  rw [hn] at h
  cases h

theorem IsItem.thinned {j j' : Json} (h : Thinned j j') (hk : Keeps ["type", "id"] j j') (hi : IsItem j) :
    IsItem j' := by
  obtain ⟨hid, kind, hkind, hm⟩ := hi
  have htype := hk "type" (by simp) (hasKey_type hkind)
  refine ⟨hk "id" (by simp) hid, kind, (h.type_iff htype).mpr hkind, h.meets ?_ hm⟩
  exact List.forall_mem_append.mpr ⟨styling_optional, kind.demands_optional⟩

@[simp] theorem lasts_numbers : Lasts HoldsNumbers := by
  intro j j' h hn
  cases h with
  | same => exact hn
  | arr _ => exact nofun
  | obj deleted hf =>
    rintro ⟨key, w⟩ hw
    obtain ⟨v, hv, ht⟩ := hf.mem hw
    exact lasts_number v w ht (hn _ hv)

@[simp] theorem Demand.optional_numbers {path : List String} : Demand.Optional ⟨path, HoldsNumbers⟩ :=
  ⟨nofun, lasts_numbers⟩

@[simp] theorem color_optional : colorType.Optional := Demand.optional_nullOr lasts_text

@[simp] theorem lasts_columnTypes : Lasts HasColumnTypes := fun _ _ h hc => h.meets (by simp) hc

theorem ItemKind.types_optional (kind : ItemKind) : ∀ d ∈ colorType :: kind.types, d.Optional := by
  cases kind <;> simp [types, expressionTypes]

@[simp] theorem lasts_itemTypes : Lasts HasItemTypes :=
  fun _ _ h hi kind hk => h.meets kind.types_optional (hi kind ((h.type_iff (hasKey_type hk)).mp hk))

/-! ## Documents -/

/-- Keys are deleted from a document, at any depth, but not what every document must have. -/
structure Prunes (state state' : Json) : Prop where
  thinned : Thinned state state'
  document : Keeps ["version", "graph"] state state'
  graph : Keeps ["viewport"] (state.valueOf "graph") (state'.valueOf "graph")
  viewport : Keeps viewportKeys (state.along ["graph", "viewport"]) (state'.along ["graph", "viewport"])
  items : ∀ (i : Nat) (j j' : Json), (itemsOf state)[i]? = some j → (itemsOf state')[i]? = some j' →
    Keeps ["type", "id"] j j'

theorem lasts_supported : Lasts fun version => isSupported version = true := by
  intro j j' h hv
  cases h with
  | same => exact hv
  | arr _ | obj _ _ => cases hv

@[simp] theorem lasts_arrow : Lasts IsArrow := by
  intro j j' h ha
  cases h with
  | same => exact ha
  | arr _ | obj _ _ => cases ha

namespace Prunes

variable {state state' : Json}

theorem hasViewport (h : Prunes state state') (hv : HasViewport (state.valueOf "graph")) :
    HasViewport (state'.valueOf "graph") :=
  ⟨h.graph _ (List.mem_cons_self ..) hv.1, fun key hk => h.viewport key hk (hv.2 key hk)⟩

/-- What is asked of every item is asked of what is left of it. -/
theorem list {sort : Json → Prop} (h : Prunes state state')
    (hs : ∀ j j', Thinned j j' → Keeps ["type", "id"] j j' → sort j → sort j')
    (hl : FalsyOr (Yields sort) (state.along ["expressions", "list"])) :
    FalsyOr (Yields sort) (state'.along ["expressions", "list"]) := by
  rcases h.thinned.along ["expressions", "list"] with hn | ht
  · rw [hn]
    exact falsyOr_null
  · intro htruthy
    exact ht.yields (fun i j j' hj hj' hjj => hs j j' hjj (h.items i j j' hj hj')) (hl (ht.truthy htruthy))

theorem isDocument (h : Prunes state state') (hd : IsDocument state) : IsDocument state' := by
  obtain ⟨hversion, hviewport, hm⟩ := hd
  have hkey : state.HasKey "version" := hasKey_of_ne_null fun hn => by
    rw [hn] at hversion
    cases hversion
  have hversion' := (h.thinned.valueOf_of_hasKey (h.document "version" (by simp) hkey)).2
  refine ⟨lasts_supported _ _ hversion' hversion, h.hasViewport hviewport, ?_⟩
  simp only [documentDemands, meets_append, meets_cons, meets_nil, and_true] at hm ⊢
  refine ⟨h.thinned.meets (by simp [arrowDemands]) hm.1, ?_, h.list (fun _ _ => IsItem.thinned) hm.2.2⟩
  exact h.thinned.sort_along (Demand.optional_falsyOr lasts_object) hm.2.1

/-- The bounds of the viewport are still numbers. -/
theorem bounds (h : Prunes state state') (hv : HasViewport (state.valueOf "graph")) {key : String}
    (hk : key ∈ viewportKeys) (hn : (state.along ["graph", "viewport", key]).IsNumber) :
    (state'.along ["graph", "viewport", key]).IsNumber := by
  have hkey : (state'.along ["graph", "viewport"]).HasKey key := h.viewport key hk (hv.2 key hk)
  rcases h.thinned.along ["graph", "viewport"] with he | ht
  · rw [he] at hkey
    obtain ⟨_, _, hnull, -⟩ := hkey
    cases hnull
  · exact lasts_number _ _ (ht.valueOf_of_hasKey hkey).2 hn

theorem settingTypes_meets (h : Prunes state state') (hv : HasViewport (state.valueOf "graph"))
    (hm : state.Meets settingTypes) : state'.Meets settingTypes := by
  simp only [settingTypes, List.cons_append, meets_cons, meets_append] at hm ⊢
  obtain ⟨hseed, ⟨hbounds, hnumbers⟩, hlabels⟩ := hm
  refine ⟨h.thinned.sort_along (Demand.optional_nullOr lasts_text) hseed, ⟨?_, ?_⟩, ?_⟩
  · intro d hd
    obtain ⟨key, hk, rfl⟩ := List.mem_map.mp hd
    exact h.bounds hv hk (hbounds _ hd)
  · exact h.thinned.meets (by simp [numberKeys]) hnumbers
  · exact h.thinned.meets (by simp) hlabels

theorem documentTypes_meets (h : Prunes state state') (hv : HasViewport (state.valueOf "graph"))
    (hm : state.Meets documentTypes) : state'.Meets documentTypes := by
  simp only [documentTypes, meets_append, meets_cons, meets_nil, and_true] at hm ⊢
  exact ⟨h.settingTypes_meets hv hm.1, h.list (fun j j' ht _ => lasts_itemTypes j j' ht) hm.2⟩

end Prunes

theorem convert_result {graphFlags : Bool} {content : String} {state : Json} (hr : Json.read content = .ok state) :
    (convert .script graphFlags content).result = (translate graphFlags state).result >>= Program.script := by
  simp only [convert, translateText, hr]
  rfl

theorem convert_succeeds {graphFlags : Bool} {content : String} {state : Json} (hr : Json.read content = .ok state) :
    Succeeds (convert .script graphFlags content).result ↔ IsDocument state ∧ state.Meets documentTypes := by
  rw [convert_result hr, succeeds_bind, ← translate_succeeds graphFlags]
  refine and_congr_right fun ⟨p, hp⟩ => ?_
  have hp' : Succeeds p.script ↔ state.Meets documentTypes :=
    (Program.script_succeeds (translate_populated.of_ok hp)).trans (translate_writable.of_ok hp)
  rw [← hp']
  constructor
  · exact fun h => h p hp
  · intro h q hq
    rwa [← Except.ok.inj (hp.symm.trans hq)]

/-- If a document is converted to a script, so is every document that is left of it. -/
theorem script_of_pruned {graphFlags : Bool} {content content' : String} {state state' : Json}
    (hr : Json.read content = .ok state) (hr' : Json.read content' = .ok state') (hp : Prunes state state')
    (h : ∃ t, (convert .script graphFlags content).result = .ok t) :
    ∃ t, (convert .script graphFlags content').result = .ok t := by
  obtain ⟨hd, hm⟩ := (convert_succeeds hr).mp h
  exact (convert_succeeds hr').mpr ⟨hp.isDocument hd, hp.documentTypes_meets hd.2.1 hm⟩

/-- An image in a folder loses its name and leaves the folder. -/
theorem script_of_an_image_that_leaves :
    let content (image : String) := "\x7b\"version\":8,\"graph\":\x7b\"viewport\":"
      ++ "\x7b\"xmin\":0,\"xmax\":1,\"ymin\":0,\"ymax\":1\x7d\x7d,\"expressions\":\x7b\"list\":["
      ++ "\x7b\"type\":\"folder\",\"id\":\"f\"\x7d,\x7b\"type\":\"image\",\"id\":\"i\"" ++ image ++ "\x7d]\x7d\x7d"
    let state (image : Json.Fields) : Json := .obj [("version", .int 8),
      ("graph", .obj [("viewport", .obj [("xmin", .int 0), ("xmax", .int 1), ("ymin", .int 0), ("ymax", .int 1)])]),
      ("expressions", .obj [("list", .arr [.obj [("type", .str "folder"), ("id", .str "f")],
        .obj ([("type", .str "image"), ("id", .str "i")] ++ image)])])]
    let before : Json.Fields := [("name", .str "n"), ("folderId", .str "f")]
    Json.read (content ",\"name\":\"n\",\"folderId\":\"f\"") = .ok (state before) ∧
      Json.read (content "") = .ok (state []) ∧
      Prunes (state before) (state []) ∧
      (∃ t, (convert .script false (content ",\"name\":\"n\",\"folderId\":\"f\"")).result = .ok t) ∧
      ∃ t, (convert .script false (content "")).result = .ok t := by
  intro content state before
  have hr : Json.read (content ",\"name\":\"n\",\"folderId\":\"f\"") = .ok (state before) := by decide +kernel
  have hr' : Json.read (content "") = .ok (state []) := by decide +kernel
  have hp : Prunes (state before) (state []) := by
    constructor
    · exact .obj [] (.keep (by simp) (.same _) (.keep (by simp) (.same _) (.keep (by simp) (.obj [] (.keep (by simp)
        (.arr (.cons (.same _) (.cons (.obj ["name", "folderId"] (.keep (by simp) (.same _) (.keep (by simp) (.same _)
          (.drop _ (by simp) (.drop _ (by simp) (.nil _)))))) .nil))) (.nil _))) (.nil _))))
    · decide
    · decide
    · decide
    · have hkeys : ∀ j ∈ itemsOf (state []), ∀ key ∈ ["type", "id"], j.HasKey key := by decide
      exact fun i j j' _ hj' key hk _ => hkeys j' (List.mem_of_getElem? hj') key hk
  have ht : (convert .script false (content ",\"name\":\"n\",\"folderId\":\"f\"")).result = .ok
      "viewport: x [0:1], y [0:1]\nid: \"f\"; folder \x7b\n  image \"\" id: \"i\"; name: \"n\";\n\x7d" := by
    have htr : (translate false (state before)).result = .ok ⟨[
        .setting (.viewport (some ⟨.int 0, .int 1⟩) (some ⟨.int 0, .int 1⟩)),
        .item ⟨.folder ⟨.null, [⟨.image (.str ""), [], [.id "i", .name (.str "n")]⟩]⟩, [], [.id "f"]⟩]⟩ := rfl
    rw [convert_result hr, htr, ok_bind]
    decide
  exact ⟨hr, hr', hp, ⟨_, ht⟩, script_of_pruned hr hr' hp ⟨_, ht⟩⟩

end GraphScript
