/-
  GraphScript.Proofs.Script.Translated — the script of a translated program says all but three things.

  A translated program is regular, as far as the flags of its histograms are: every item begins with
  its id, an expression has a text, and every other flag is a word. So its script tells it apart from
  every other translated program, up to headers of columns, titles that say nothing, and the form of
  numbers (`Program.erased`).
-/
import GraphScript.Proofs.Documents.Parts
import GraphScript.Proofs.Folders.Gathering
import GraphScript.Proofs.Script.Lines
import GraphScript.Proofs.State.Flags

namespace GraphScript

open Faults

/-! ## Groups of a program -/

def Leaf.groups : Leaf → List OptionGroup
  | .table columns => columns.flatMap (·.options)
  | _ => []

def Item.groupsWith {α : Type} (affix : α → List OptionGroup) (i : Item α) : List OptionGroup :=
  i.options ++ affix i.affix

def Affix.groups : Affix → List OptionGroup
  | .leaf l => l.groups
  | .folder f => f.children.flatMap (Item.groupsWith Leaf.groups)

/-- Every option group of a program: of its items, of the items in folders, and of columns. -/
def Program.groups (p : Program) : List OptionGroup := p.items.flatMap (Item.groupsWith Affix.groups)

/-- The groups of an item are its own and those of translated columns. -/
theorem Item.ofJson_groups {j : Json} {t : Item Affix} (h : Item.ofJson j = .ok t) :
    ∀ g ∈ t.groupsWith Affix.groups, g ∈ t.options ∨ ∃ j c, Column.ofJson j = .ok c ∧ g ∈ c.options := by
  obtain ⟨fs, id, styling, kind, affix, groups, rfl, -, -, ha, -, rfl⟩ := Item.ofJson_eq_ok h
  intro g hg
  rcases List.mem_append.mp hg with hg | hg
  · exact .inl hg
  · cases affix with
    | folder f =>
      -- A folder has no children yet.
      have haffix := Item.ofJson_affix h
      split at haffix
      · obtain ⟨f', hf', hchildren⟩ := haffix
        cases hf'
        rw [Affix.groups, hchildren] at hg
        cases hg
      · obtain ⟨l, hl⟩ := haffix
        cases hl
    | leaf l =>
      cases l with
      | table columns =>
        obtain ⟨c, hc, hgc⟩ := List.mem_flatMap.mp hg
        obtain ⟨j, hj⟩ := ItemKind.affix_columns ha c hc
        exact .inr ⟨j, c, hj, hgc⟩
      | _ => cases hg

/-- The flags of a histogram mode. -/
def OptionGroup.histogramFlags : OptionGroup → List Flag
  | .histogramMode flags => flags
  | _ => []

def Program.histogramFlags (p : Program) : List Flag := p.groups.flatMap OptionGroup.histogramFlags

theorem OptionGroup.Worded.plain {g : OptionGroup} (hw : g.Worded) (hm : ∀ f ∈ g.histogramFlags, f ∈ knownModes) :
    g.Plain := by
  intro f hf
  by_cases hk : g.kind = .histogramModeOption
  · cases g with
    | histogramMode flags => exact List.mem_append_right _ (hm f hf)
    | _ => cases hk
  · obtain ⟨w, -, rfl⟩ := List.mem_map.mp ((hw hk).subset hf)
    exact Flag.word_plain w

/-! ## Items -/

/-- What the option groups of an item's affix are where the histogram modes of the item are known. -/
theorem ItemKind.affix_regular {fs : Json.Fields} {kind : ItemKind} {a : Affix} (h : kind.affix fs = .ok a)
    (hm : ∀ g ∈ a.groups, ∀ f ∈ g.histogramFlags, f ∈ knownModes) : a.Regular := by
  cases kind with
  | folder =>
    obtain rfl := Except.ok.inj h
    exact fun i hi => absurd hi List.not_mem_nil
  | table =>
    simp only [affix, bind_eq_ok, pure_eq, Except.ok.injEq] at h
    obtain ⟨members, -, columns, hc, rfl⟩ := h
    intro c hcm g hg
    obtain ⟨j, -, hj⟩ := (mem_of_mapM hc) c hcm
    exact (Column.ofJson_worded hj g hg).plain (hm g (List.mem_flatMap.mpr ⟨c, hcm, hg⟩))
  | simulation =>
    simp only [affix, bind_eq_ok, pure_eq, Except.ok.injEq] at h
    obtain ⟨_, -, _, -, _, -, rfl⟩ := h
    trivial
  | expression =>
    simp only [affix, bind_eq_ok, pure_eq, Except.ok.injEq] at h
    obtain ⟨_, -, rfl⟩ := h
    rfl
  | image | text =>
    obtain rfl := Except.ok.inj h
    trivial

theorem Item.ofJson_regular {j : Json} {t : Item Affix} (h : Item.ofJson j = .ok t)
    (hm : ∀ g ∈ t.groupsWith Affix.groups, ∀ f ∈ g.histogramFlags, f ∈ knownModes) : t.Regular Affix.Regular := by
  have hworded := Item.ofJson_worded h
  obtain ⟨fs, id, styling, kind, affix, groups, rfl, -, -, ha, -, rfl⟩ := Item.ofJson_eq_ok h
  refine ⟨⟨id.text, styling ++ groups, rfl⟩, fun g hgm => ?_, ?_⟩
  · exact (hworded g hgm).plain (hm g (List.mem_append_left _ hgm))
  · exact ItemKind.affix_regular ha fun g hgm => hm g (List.mem_append_right _ hgm)

/-! ## Settings -/

theorem axisSettings_plain {graph : Json.Fields} {settings : List Setting} (h : graph.axisSettings = .ok settings) :
    ∀ s ∈ settings, s.Plain := by
  have hraw : ∀ (setting : Json → Json → Setting) {x y : String} {s}, (∀ v w, (setting v w).Plain) →
      some s = graph.rawSetting setting x y → s.Plain := by
    intro setting x y s hs h
    unfold Json.Fields.rawSetting at h
    split at h
    · cases h
      exact hs _ _
    · cases h
  simp only [Json.Fields.axisSettings, bind_eq_ok, pure_eq, Except.ok.injEq] at h
  obtain ⟨arrows, ha, rfl⟩ := h
  intro s hs
  obtain ⟨o, ho, rfl⟩ := List.mem_filterMap.mp hs
  simp only [List.mem_cons, List.not_mem_nil, or_false] at ho
  rcases ho with h | h | rfl | h | h | h
  · exact hraw .minorSubdivisions (fun _ _ => trivial) h
  · exact hraw .axisSteps (fun _ _ => trivial) h
  · simp only [Json.Fields.arrowSetting, bind_eq_ok, pure_eq, Except.ok.injEq] at ha
    obtain ⟨_, -, _, -, ha⟩ := ha
    split at ha
    · cases ha
    · cases ha
      trivial
  · exact hraw .axisLabels (fun _ _ => trivial) h
  · simp only [Json.Fields.axesSetting] at h
    split at h
    · cases h
    · cases h
      trivial
  · simp only [Json.Fields.numbersSetting] at h
    split at h
    · cases h
    · cases h
      trivial

theorem stateSettings_plain {graphFlags : Bool} {fs : Json.Fields} {settings : List Setting}
    (h : stateSettings graphFlags fs = .ok settings) : ∀ s ∈ settings, s.Plain := by
  obtain ⟨graph, axes, -, ha, rfl⟩ := stateSettings_eq_ok h
  simp only [List.forall_mem_append, List.forall_mem_cons]
  refine ⟨⟨?_, ?_⟩, trivial, axisSettings_plain ha⟩
  · unfold seedOf
    split <;> simp [Setting.Plain]
  · intro s hs
    obtain ⟨flags, rfl, hw⟩ := flagsOf_words hs
    intro f hf
    obtain ⟨w, rfl⟩ := hw f hf
    exact Flag.word_plain w

/-! ## Programs -/

/-- A line of translated items is regular where the modes of its histograms are known. -/
theorem Line.regular_of_apart {i : Item Affix}
    (hm : ∀ g ∈ i.groupsWith Affix.groups, ∀ f ∈ g.histogramFlags, f ∈ knownModes)
    (hi : ∀ t ∈ i.apart.1 :: i.apart.2, ∃ j, Item.ofJson j = .ok t) : i.Regular Affix.Regular := by
  obtain ⟨affix, smallFlags, options⟩ := i
  cases affix with
  | leaf l =>
    obtain ⟨j, hj⟩ := hi _ (List.mem_cons_self ..)
    exact Item.ofJson_regular hj hm
  | folder f =>
    obtain ⟨j, hj⟩ := hi _ (List.mem_cons_self ..)
    -- The folder's own line has the same options and no children.
    have hself := Item.ofJson_regular hj fun g hg => by
      simp only [Item.groupsWith, Item.apart, Affix.groups, List.flatMap_nil, List.append_nil] at hg
      exact hm g (List.mem_append_left _ hg)
    refine ⟨hself.id, hself.plain, fun c hc => ?_⟩
    obtain ⟨j, hj⟩ := hi c.ofLeaf (List.mem_cons_of_mem _ (List.mem_map_of_mem hc))
    have hchild := Item.ofJson_regular hj fun g hg =>
      hm g (List.mem_append_right _ (List.mem_flatMap.mpr ⟨c, hc, hg⟩))
    exact ⟨hchild.id, hchild.plain, hchild.affix⟩

theorem translate_regular {graphFlags : Bool} {state : Json} {p : Program}
    (h : (translate graphFlags state).result = .ok p) (hm : ∀ f ∈ p.histogramFlags, f ∈ knownModes) : p.Regular := by
  obtain ⟨fs, settings, items, lines, -, -, hs, -, hl, rfl⟩ := translate_eq_ok.mp h
  intro l hlm
  rcases List.mem_append.mp hlm with hls | hll
  · obtain ⟨s, hsm, rfl⟩ := List.mem_map.mp hls
    exact stateSettings_plain hs s hsm
  · obtain ⟨i, rfl, hi⟩ := foldersOf_items hl l hll
    refine Line.regular_of_apart (fun g hg f hf => hm f ?_) fun t ht => (hi t ht).imp fun j hj => hj.2
    refine List.mem_flatMap.mpr ⟨g, List.mem_flatMap.mpr ⟨i, ?_, hg⟩, hf⟩
    exact List.mem_filterMap.mpr ⟨_, hlm, rfl⟩

/-- Two documents are translated into programs of one script only if the programs are the same without headers of
    columns, with no title in place of one that is not truthy, and with numbers as their texts. -/
theorem script_tells_all_but_erased {flags flags' : Bool} {state state' : Json} {p q : Program} {t : String}
    (hp : (translate flags state).result = .ok p) (hq : (translate flags' state').result = .ok q)
    (hpm : ∀ f ∈ p.histogramFlags, f ∈ knownModes) (hqm : ∀ f ∈ q.histogramFlags, f ∈ knownModes) (ht : p.script = .ok t)
    (hu : q.script = .ok t) : p.erased = q.erased :=
  Program.erased_eq_of_script_eq (translate_regular hp hpm) (translate_regular hq hqm) ht hu

/-- A table in a folder: with a header, an empty title and a viewport from 0, or without either and from 0.0. -/
theorem script_of_a_table_without_header :
    let state (xmin title header : Json) : Json := .obj [("version", .int 8),
      ("graph", .obj [("viewport", .obj [("xmin", xmin), ("xmax", .int 10), ("ymin", .int (-1)), ("ymax", .int 1)])]),
      ("expressions", .obj [("list", .arr [
        .obj [("type", .str "folder"), ("id", .str "f"), ("title", title)],
        .obj [("type", .str "table"), ("id", .str "t"), ("folderId", .str "f"),
          ("columns", .arr [.obj [("latex", header), ("values", .arr [.str "1"])]])],
        .obj [("type", .str "expression"), ("id", .str "e"), ("latex", .str "y"),
          ("vizProps", .obj [("histogramMode", .str "relative")])]])])]
    let program (xmin title : Json) (header : Option Latex) : Program := ⟨[
      .setting (.viewport (some ⟨xmin, .int 10⟩) (some ⟨.int (-1), .int 1⟩)),
      .item ⟨.folder ⟨title, [⟨.table [⟨[⟨"1"⟩], header, [], []⟩], [], [.id "t"]⟩]⟩, [], [.id "f"]⟩,
      .item ⟨.leaf (.expression (some ⟨"y"⟩)), [], [.id "e", .histogramMode [.given (.str "relative")]]⟩]⟩
    (translate false (state (.int 0) (.str "") (.str "x"))).result = .ok (program (.int 0) (.str "") (some ⟨"x"⟩)) ∧
      (translate true (state (.float .zero) .null .null)).result = .ok (program (.float .zero) .null none) ∧
      (program (.int 0) (.str "") (some ⟨"x"⟩)).erased = (program (.float .zero) .null none).erased := by
  intro state program
  let text := "viewport: x [0:10], y [-1:1]\n"
    ++ "id: \"f\"; folder \x7b\n  id: \"t\"; table \x7b\n    [\x601\x60]\n  \x7d\n\x7d\n"
    ++ "\x60y\x60 id: \"e\"; histogram mode: relative;"
  have hp : (translate false (state (.int 0) (.str "") (.str "x"))).result =
      .ok (program (.int 0) (.str "") (some ⟨"x"⟩)) := rfl
  have hq : (translate true (state (.float .zero) .null .null)).result = .ok (program (.float .zero) .null none) := rfl
  have ht : (program (.int 0) (.str "") (some ⟨"x"⟩)).script = .ok text := by
    dsimp only [program, text]
    decide
  have hu : (program (.float .zero) .null none).script = .ok text := by
    dsimp only [program, text]
    decide
  exact ⟨hp, hq, script_tells_all_but_erased hp hq (by decide) (by decide) ht hu⟩

end GraphScript
