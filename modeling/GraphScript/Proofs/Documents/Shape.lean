/-
  GraphScript.Proofs.Documents.Shape — the lines of a translated document, in their order.

  The settings come first: the seed, the graph flags, the viewport and the axes, each only where the
  document has something for it. Then come the lines of the items. An item is a line or a child of
  one, so the lines can be counted from the document and the folders alone.

  - `translated_shape`
-/
import GraphScript.Proofs.Documents.Translatable
import GraphScript.Proofs.Folders.Conservation
import GraphScript.Proofs.State.Families

namespace GraphScript

open Faults Json

/-! ## Settings and items of a program -/

namespace Program

variable {settings : List Setting} {items : List (Item Affix)}

theorem settings_mk : (Program.mk (settings.map Line.setting ++ items.map Line.item)).settings = settings := by
  simp [Program.settings, List.filterMap_map, List.filterMap_append]

theorem items_mk : (Program.mk (settings.map Line.setting ++ items.map Line.item)).items = items := by
  simp [Program.items, List.filterMap_map, List.filterMap_append]

/-- The children of the lines are those of the folders. -/
theorem children_of_folders (lines : List Line) :
    (Program.mk lines).folders.flatMap (·.children) = lines.flatMap Line.children := by
  induction lines with
  | nil => rfl
  | cons l rest ih =>
    simp only [folders, Program.items] at ih ⊢
    rcases l with s | ⟨affix | f, smallFlags, options⟩ <;> simp [Line.children, ih]

/-- Settings have no children. -/
theorem children_behind_settings (lines : List Line) :
    (settings.map Line.setting ++ lines).flatMap Line.children = lines.flatMap Line.children := by
  simp [List.flatMap_map, Line.children]

end Program

theorem exists_items {lines : List Line} (h : ∀ l ∈ lines, ∃ i, l = .item i) :
    ∃ items : List (Item Affix), lines = items.map Line.item := by
  induction lines with
  | nil => exact ⟨[], rfl⟩
  | cons l rest ih =>
    obtain ⟨i, rfl⟩ := h l (List.mem_cons_self ..)
    obtain ⟨items, rfl⟩ := ih fun l hl => h l (List.mem_cons_of_mem _ hl)
    exact ⟨i :: items, rfl⟩

/-! ## Items of a document -/

theorem not_isItem_str (s : String) : ¬ IsItem (.str s) := by
  rintro ⟨⟨_, _, hk, -⟩, -⟩
  cases hk

/-- A list of items that can be translated is the list of the document: what is no list yields texts, and no text can
    be translated. -/
theorem stateItems_eq {fs : Json.Fields} {items : List Json} (h : stateItems fs = .ok items)
    (hs : ∀ j ∈ items, IsItem j) : items = itemsOf (.obj fs) := by
  obtain ⟨expressions, he, hi⟩ := bind_eq_ok.mp h
  obtain ⟨-, rfl⟩ := nested_eq_ok.mp he
  rw [get_entries] at hi
  have htexts : ∀ {α : Type} (text : α → String) (l : List α), (∀ j ∈ l.map fun a => .str (text a), IsItem j) →
      (l.map fun a => Json.str (text a)) = [] := by
    intro α text l hl
    cases l with
    | nil => rfl
    | cons a rest => exact absurd (hl _ (List.mem_cons_self ..)) (not_isItem_str _)
  show items = ((fs.get "expressions").valueOf "list").elements
  generalize (fs.get "expressions").valueOf "list" = list at hi
  unfold membersIfAny at hi
  split at hi
  · cases list with
    | arr members => exact (Except.ok.inj hi).symm
    | str s =>
      obtain rfl := Except.ok.inj hi
      exact htexts Char.toString _ hs
    | obj gs =>
      obtain rfl := Except.ok.inj hi
      exact htexts Prod.fst _ hs
    | _ => cases hi
  · rename_i ht
    obtain rfl := Except.ok.inj hi
    cases list with
    | arr members =>
      cases members with
      | nil => rfl
      | cons _ _ => exact absurd rfl ht
    | _ => rfl

/-! ## Documents -/

/-- A translated document has, in this order: its seed unless that is null; one line of flags, if they are asked for
    and one of the five toggles is literally true or false; the viewport; for each family of axes in the order of the
    table a line, if one of its sources is not null, that shows just those that are not; and the lines of the items.
    The lines and the children of folders together are as many as the settings and the items of the list. -/
theorem translated_shape {graphFlags : Bool} {state : Json} {p : Program}
    (h : (translate graphFlags state).result = .ok p) :
    ∃ (fs graph : Json.Fields) (axes : List Setting), state = .obj fs ∧ fs.get "graph" = .obj graph ∧
      p.lines = p.settings.map Line.setting ++ p.items.map Line.item ∧
      p.settings = seedOf fs ++ flagsOf graphFlags graph ++ viewportOf graph :: axes ∧
      List.Forall₂ (·.Shows graph ·) (families.filter (·.triggered graph)) axes ∧
      (foldersOf (itemsOf state)).result = .ok (p.items.map Line.item) ∧
      p.lines.length + (p.folders.flatMap (·.children)).length =
        (seedOf fs).length + (flagsOf graphFlags graph).length + 1 + (families.filter (·.triggered graph)).length
          + (itemsOf state).length := by
  obtain ⟨fs, settings, items, lines, rfl, -, hs, hi, hl, rfl⟩ := translate_eq_ok.mp h
  obtain ⟨graph, axes, hg, ha, rfl⟩ := stateSettings_eq_ok hs
  obtain rfl := stateItems_eq hi ((foldersOf_succeeds items).mp ⟨lines, hl⟩)
  obtain ⟨itemLines, rfl⟩ := exists_items fun l hl' => (foldersOf_items hl l hl').imp fun i hi => hi.1
  have hcount := foldersOf_length hl
  have hshow := axisSettings_show ha
  refine ⟨fs, graph, axes, rfl, hg, ?_, Program.settings_mk, hshow, ?_, ?_⟩
  · rw [Program.settings_mk, Program.items_mk]
  · rw [Program.items_mk, hl]
  · rw [Program.children_of_folders, Program.children_behind_settings, hshow.length_eq]
    simp only [List.length_append, List.length_map, List.length_cons] at hcount ⊢
    omega

/-- Three of the six families, one toggle that is literally true and one that is a number, and a folder with a child. -/
theorem translated_shape_of_three_families :
    let state : Json := .obj [("version", .int 8), ("randomSeed", .str "s"),
      ("graph", .obj [("viewport", .obj [("xmin", .int 0), ("xmax", .int 1), ("ymin", .int 0), ("ymax", .int 1)]),
        ("degreeMode", .bool true), ("showGrid", .int 1), ("yAxisStep", .int 2), ("xAxisArrowMode", .str "BOTH"),
        ("polarNumbers", .int 0)]),
      ("expressions", .obj [("list", .arr [.obj [("type", .str "folder"), ("id", .str "f")],
        .obj [("type", .str "text"), ("id", .str "a"), ("folderId", .str "f")],
        .obj [("type", .str "text"), ("id", .str "b")]])])]
    let p : Program := ⟨[.setting (.seed (.str "s")), .setting (.flags [.word .degrees]),
      .setting (.viewport (some ⟨.int 0, .int 1⟩) (some ⟨.int 0, .int 1⟩)), .setting (.axisSteps .null (.int 2)),
      .setting (.axisArrows (some .both) none), .setting (.axisNumbers none none (some .hidden)),
      .item ⟨.folder ⟨.null, [⟨.note .null, [], [.id "a"]⟩]⟩, [], [.id "f"]⟩,
      .item ⟨.leaf (.note .null), [], [.id "b"]⟩]⟩
    (translate true state).result = .ok p ∧
      ∃ (fs graph : Json.Fields) (axes : List Setting), state = .obj fs ∧ fs.get "graph" = .obj graph ∧
        p.lines = p.settings.map Line.setting ++ p.items.map Line.item ∧
        p.settings = seedOf fs ++ flagsOf true graph ++ viewportOf graph :: axes ∧
        List.Forall₂ (·.Shows graph ·) (families.filter (·.triggered graph)) axes ∧
        (foldersOf (itemsOf state)).result = .ok (p.items.map Line.item) ∧
        p.lines.length + (p.folders.flatMap (·.children)).length =
          (seedOf fs).length + (flagsOf true graph).length + 1 + (families.filter (·.triggered graph)).length
            + (itemsOf state).length := by
  intro state p
  have hp : (translate true state).result = .ok p := rfl
  exact ⟨hp, translated_shape hp⟩

end GraphScript
