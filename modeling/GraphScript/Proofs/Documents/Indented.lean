/-
  GraphScript.Proofs.Documents.Indented — an item of a document is one text at every indentation.

  Tables of a document have no blocks of rules, neither among their own options nor among those of
  their columns: only expressions have rules (`Item.ofJson_rules`). So each item of a program keeps to
  one convention on braces. A table moves with its brace; of every other item the lines that begin
  with a brace stay, and the table in a folder has no such line.

  - `items_shift_as_wholes`
-/
import GraphScript.Proofs.Script.Shifting
import GraphScript.Proofs.Script.Translated

namespace GraphScript

open Faults Text

/-! ## Rules -/

/-- Only an expression has rules among its options. -/
theorem Item.ofJson_rules {j : Json} {t : Item Affix} (h : Item.ofJson j = .ok t) {g : OptionGroup} (hg : g ∈ t.options)
    (hk : g.kind = .clickableRulesOption) : ∃ latex, t.affix = .leaf (.expression latex) := by
  obtain ⟨fs, id, kind, rfl, hkind, hgiven⟩ := Item.ofJson_given h
  have howns : ∀ kind : ItemKind, .clickableRulesOption ∈ Json.Fields.stylingKinds ++ kind.ownKinds →
      kind = .expression := by
    intro kind hmem
    cases kind with
    | expression => rfl
    | _ => revert hmem; decide
  obtain rfl : kind = .expression := by
    rcases hgiven g hg with rfl | ⟨k, hmem, hgives⟩
    · cases hk
    · exact howns kind (hk ▸ hgives.kind_eq ▸ hmem)
  obtain ⟨_, _, _, kind', affix, _, hfs, -, hkind', ha, -, rfl⟩ := Item.ofJson_eq_ok h
  cases hfs
  obtain rfl : .expression = kind' := Option.some.inj (hkind.symm.trans hkind')
  simp only [ItemKind.affix, bind_eq_ok, pure_eq, Except.ok.injEq] at ha
  obtain ⟨latex, -, rfl⟩ := ha
  exact ⟨_, rfl⟩

theorem Item.ofJson_columns {j : Json} {t : Item Affix} (h : Item.ofJson j = .ok t) {columns : List Column}
    (ht : t.affix = .leaf (.table columns)) : ∀ c ∈ columns, ∀ g ∈ c.options, g.kind ≠ .clickableRulesOption := by
  obtain ⟨fs, _, _, kind, affix, _, rfl, -, -, ha, -, rfl⟩ := Item.ofJson_eq_ok h
  dsimp only at ht
  subst ht
  intro c hc g hg hk
  obtain ⟨j, hj⟩ := ItemKind.affix_columns ha c hc
  obtain ⟨_, -, hgiven⟩ := Column.ofJson_given hj
  obtain ⟨k, hmem, hgives⟩ := hgiven g hg
  have hno : Kind.clickableRulesOption ∉ Json.Fields.stylingKinds := by decide
  exact hno (hk ▸ hgives.kind_eq ▸ hmem)

/-! ## Items of a program -/

/-- Every item of a program: those at the top, and those in folders. -/
def Program.allItems (p : Program) : List (Item Affix) := p.items.flatMap fun i => i :: i.apart.2

/-- The items of a translated program are translated, a folder's own item without its children. -/
theorem translate_items {graphFlags : Bool} {state : Json} {p : Program}
    (h : (translate graphFlags state).result = .ok p) :
    ∀ i ∈ p.items, ∀ t ∈ i.apart.1 :: i.apart.2, ∃ j, Item.ofJson j = .ok t := by
  obtain ⟨fs, settings, items, lines, -, -, -, -, hl, rfl⟩ := translate_eq_ok.mp h
  intro i hi t ht
  obtain ⟨l, hlm, hli⟩ := List.mem_filterMap.mp hi
  cases l with
  | setting s => cases hli
  | item i' =>
    obtain rfl := Option.some.inj hli
    rcases List.mem_append.mp hlm with hm | hm
    · obtain ⟨s, -, hs⟩ := List.mem_map.mp hm
      cases hs
    · obtain ⟨_, heq, hi⟩ := foldersOf_items hl _ hm
      cases heq
      obtain ⟨j, -, hj⟩ := hi t ht
      exact ⟨j, hj⟩

/-- Every item of a translated program is translated, or it is a folder, and translated but for its children. -/
theorem translate_allItems {graphFlags : Bool} {state : Json} {p : Program}
    (h : (translate graphFlags state).result = .ok p) {i : Item Affix} (hi : i ∈ p.allItems) :
    ∃ j, Item.ofJson j = .ok i.apart.1 := by
  obtain ⟨top, htop, hmem⟩ := List.mem_flatMap.mp hi
  have hitems := translate_items h top htop
  rcases List.mem_cons.mp hmem with rfl | hmem
  · exact hitems _ (List.mem_cons_self ..)
  · obtain ⟨j, hj⟩ := hitems i (List.mem_cons_of_mem _ hmem)
    -- A child is no folder.
    have hself : i.apart.1 = i := by
      obtain ⟨affix, smallFlags, options⟩ := top
      cases affix with
      | leaf l => cases hmem
      | folder f =>
        obtain ⟨c, -, rfl⟩ := List.mem_map.mp hmem
        rfl
    exact ⟨j, hself.symm ▸ hj⟩

section

variable {i : Item Affix} {j : Json}

/-- Of a table, everything moves; of any other item, everything but braces in the first column. -/
theorem shiftable_of_translated (h : Item.ofJson j = .ok i.apart.1) :
    i.Shiftable (i.affix.kind != .table) (Affix.Shiftable (i.affix.kind != .table) "") := by
  obtain ⟨affix, smallFlags, options⟩ := i
  cases affix with
  | folder f =>
    refine ⟨⟨rfl, fun c _ => ⟨?_, fun _ _ _ => rfl⟩⟩, fun _ _ _ => rfl⟩
    generalize c.affix = l
    cases l with
    | table columns => exact ⟨fun _ => by decide, fun _ _ _ _ _ => rfl⟩
    | simulation rules => exact rfl
    | _ => trivial
  | leaf l =>
    cases l with
    | table columns =>
      have hmoves : ¬ (Kind.table != .table) = true := by decide
      refine ⟨⟨fun hstays => absurd hstays hmoves, fun c hc g hg hk => ?_⟩, fun g hg hk => ?_⟩
      · exact absurd hk (Item.ofJson_columns h rfl c hc g hg)
      · obtain ⟨latex, hlatex⟩ := Item.ofJson_rules h hg hk
        cases hlatex
    | simulation rules => exact ⟨rfl, fun _ _ _ => rfl⟩
    | _ => exact ⟨trivial, fun _ _ _ => rfl⟩

/-- What is no expression has no rules among its options. -/
theorem options_of_translated (h : Item.ofJson j = .ok i.apart.1) (hi : i.affix.kind ≠ .expression) :
    ∀ g ∈ i.options, g.kind ≠ .clickableRulesOption := by
  intro g hg hk
  obtain ⟨affix, smallFlags, options⟩ := i
  cases affix with
  | folder f =>
    obtain ⟨latex, hlatex⟩ := Item.ofJson_rules h hg hk
    cases hlatex
  | leaf l =>
    obtain ⟨latex, hlatex⟩ := Item.ofJson_rules h hg hk
    cases hlatex
    exact hi rfl

end

/-- The children of a folder are items of the program too. -/
theorem Program.children_mem {p : Program} {i : Item Affix} (hi : i ∈ p.allItems) {f : Folder}
    (hf : i.affix = .folder f) : ∀ c ∈ f.children, c.ofLeaf ∈ p.allItems := by
  obtain ⟨top, htop, hmem⟩ := List.mem_flatMap.mp hi
  intro c hc
  refine List.mem_flatMap.mpr ⟨top, htop, List.mem_cons_of_mem _ ?_⟩
  obtain ⟨affix, smallFlags, options⟩ := top
  rcases List.mem_cons.mp hmem with rfl | hmem
  · obtain rfl : affix = .folder f := hf
    exact List.mem_map_of_mem hc
  · cases affix with
    | leaf l => cases hmem
    | folder g =>
      obtain ⟨d, -, rfl⟩ := List.mem_map.mp hmem
      cases hf

section

variable {graphFlags : Bool} {state : Json} {p : Program} (hp : (translate graphFlags state).result = .ok p)
  {i : Item Affix} (hi : i ∈ p.allItems) (hu : Unbroken (i.textsWith Affix.texts)) {indentation t : String}

include hp hi hu

theorem translated_shifted (indentation : String) :
    itemScript indentation i = (itemScript "" i).map (shifted (i.affix.kind != .table) indentation) := by
  obtain ⟨j, hj⟩ := translate_allItems hp hi
  exact itemScript_shifted (shiftable_of_translated hj) hu indentation

/-- An item whose affix is a block, behind options that are not. -/
theorem translated_block {w closing : String} {rows : List String} (hfirst : i.affix.kind.optionsFirst = true)
    (hw : '\n' ∉ w.toList) (hopens : Opens beginsItem w.toList)
    (ha : i.affix.script indentation = .ok (w ++ block closing rows)) (ht : itemScript indentation i = .ok t) :
    HoldsBlock indentation closing rows t := by
  obtain ⟨j, hj⟩ := translate_allItems hp hi
  have hkind : i.affix.kind ≠ .expression := by
    intro hk
    rw [hk] at hfirst
    cases hfirst
  exact item_block hfirst hw hopens ha (options_of_translated hj hkind) (unbroken_append.mp hu).2 ht

theorem translated_folder {f : Folder} (hf : i.affix = .folder f) (ht : itemScript indentation i = .ok t) :
    ∃ rows, HoldsBlock indentation "" rows t ∧
      List.Forall₂ (fun c row => ∃ text, leafItemScript "" c = .ok text ∧
        row = shifted (c.affix.kind != .table) (indented indentation) text) f.children rows := by
  have htexts := (unbroken_append.mp hu).1
  rw [hf] at htexts
  obtain ⟨htitle, hchildren⟩ := unbroken_append.mp htexts
  obtain ⟨a, ha, -⟩ := bind_eq_ok.mp ht
  have haffix := ha
  rw [hf] at haffix
  obtain ⟨o, rows, ho, hrows, rfl⟩ := Folder.script_eq_ok haffix
  refine ⟨rows, translated_block hp hi hu (by rw [hf]; rfl) ?_ ?_ ha ht, ?_⟩
  · refine unbroken_of_moves ((moves_word (by decide)).append (moves_optional fun x hx => ?_))
    exact (moves_present (unbroken_orNull htitle) ho x hx).append (moves_word (by decide))
  · rw [String.toList_append]
    exact opens_of_head (by decide) _
  · refine (forall₂_of_mapM (fun c hc => hc) hrows).imp fun c row h => ?_
    obtain ⟨hc, hrow⟩ := h
    have hlaw := translated_shifted hp (p.children_mem hi hf c hc) (unbroken_flatMap.mp hchildren c hc)
      (indented indentation)
    obtain ⟨text, htext, rfl⟩ := map_eq_ok.mp (hlaw.symm.trans hrow)
    exact ⟨text, htext, rfl⟩

theorem translated_table {columns : List Column} (hl : i.affix = .leaf (.table columns))
    (ht : itemScript indentation i = .ok t) :
    ∃ rows : List String, rows.length = columns.length ∧ HoldsBlock indentation indentation rows t := by
  obtain ⟨a, ha, -⟩ := bind_eq_ok.mp ht
  have haffix := ha
  rw [hl] at haffix
  simp only [Affix.script, Leaf.script, bind_eq_ok, pure_eq, Except.ok.injEq] at haffix
  obtain ⟨rows, hrows, rfl⟩ := haffix
  refine ⟨rows, (mapM_eq_ok.mp hrows).length_eq.symm, ?_⟩
  exact translated_block hp hi hu (by rw [hl]; rfl) (by decide) (by decide) ha ht

theorem translated_simulation {rules : List ClickableRule} (hl : i.affix = .leaf (.simulation rules))
    (ht : itemScript indentation i = .ok t) :
    ∃ rows : List String, rows.length = rules.length ∧ HoldsBlock indentation "" rows t := by
  refine ⟨rules.map (·.script (indented indentation)), List.length_map .., ?_⟩
  exact translated_block (w := "simulation ") hp hi hu (by rw [hl]; rfl) (by decide) (by decide) (by rw [hl]; rfl) ht

end

/-- Every item of a translated program whose texts have no line break keeps its text at every indentation, up to the
    indentation: a table moves as a whole, and of any other item the lines that begin with a brace stay. So the rows of
    a folder are the texts of its children, shifted; a table closes behind the indentation that it opens behind, and
    all other blocks close in the first column. -/
theorem items_shift_as_wholes {graphFlags : Bool} {state : Json} {p : Program}
    (hp : (translate graphFlags state).result = .ok p) :
    ∀ i ∈ p.allItems, Unbroken (i.textsWith Affix.texts) → ∀ indentation : String,
      itemScript indentation i = (itemScript "" i).map (shifted (i.affix.kind != .table) indentation) ∧
      ∀ t, itemScript indentation i = .ok t →
        (∀ f, i.affix = .folder f → ∃ rows, HoldsBlock indentation "" rows t ∧
          List.Forall₂ (fun c row => ∃ text, leafItemScript "" c = .ok text ∧
            row = shifted (c.affix.kind != .table) (indented indentation) text) f.children rows) ∧
        (∀ columns, i.affix = .leaf (.table columns) → ∃ rows : List String, rows.length = columns.length ∧
          HoldsBlock indentation indentation rows t) ∧
        (∀ rules, i.affix = .leaf (.simulation rules) → ∃ rows : List String, rows.length = rules.length ∧
          HoldsBlock indentation "" rows t) ∧
        (∀ rules flags, .clickableRules rules flags ∈ i.options → ∃ rows : List String,
          rows.length = rules.length ∧ (block "" rows).toList <:+: t.toList) := by
  intro i hi hu indentation
  refine ⟨translated_shifted hp hi hu indentation, fun t ht => ⟨fun f hf => translated_folder hp hi hu hf ht,
    fun columns hl => translated_table hp hi hu hl ht, fun rules hl => translated_simulation hp hi hu hl ht, ?_⟩⟩
  intro rules flags hg
  obtain ⟨u, hgu, hut⟩ := group_isInfix hg ht
  refine ⟨rules.map (·.script (indented indentation)), List.length_map .., ?_⟩
  exact List.IsInfix.trans (rules_isInfix hgu) hut

/-- A folder with a table and with an expression that has rules: the brace of the table moves, the other two stay. -/
theorem a_folder_with_a_table_shifts :
    let state : Json := .obj [("version", .int 8),
      ("graph", .obj [("viewport", .obj [("xmin", .int 0), ("xmax", .int 1), ("ymin", .int 0), ("ymax", .int 1)])]),
      ("expressions", .obj [("list", .arr [
        .obj [("type", .str "folder"), ("id", .str "f")],
        .obj [("type", .str "table"), ("id", .str "t"), ("folderId", .str "f"),
          ("columns", .arr [.obj [("values", .arr [.str "1"]), ("dragMode", .str "X")]])],
        .obj [("type", .str "expression"), ("id", .str "e"), ("folderId", .str "f"), ("latex", .str "y"),
          ("clickableInfo", .obj [("enabled", .bool true),
            ("rules", .arr [.obj [("assignment", .str "a"), ("expression", .str "1")]])])]])])]
    let i : Item Affix := ⟨.folder ⟨.null, [⟨.table [⟨[⟨"1"⟩], none, [], [.drag [.word .dragX]]⟩], [], [.id "t"]⟩,
      ⟨.expression (some ⟨"y"⟩), [], [.id "e", .clickableRules [⟨none, ⟨"a"⟩, ⟨"1"⟩⟩] []]⟩]⟩, [], [.id "f"]⟩
    let p : Program := ⟨[.setting (.viewport (some ⟨.int 0, .int 1⟩) (some ⟨.int 0, .int 1⟩)), .item i]⟩
    let text := "id: \"f\"; folder \x7b\n  id: \"t\"; table \x7b\n    [\x601\x60]; drag: x\n  \x7d\n"
      ++ "  \x60y\x60 id: \"e\"; clickable rules: \x7b\n    \x60a\x60 <- \x601\x60\n\x7d;\n\x7d"
    let moved := "  id: \"f\"; folder \x7b\n    id: \"t\"; table \x7b\n      [\x601\x60]; drag: x\n    \x7d\n"
      ++ "    \x60y\x60 id: \"e\"; clickable rules: \x7b\n      \x60a\x60 <- \x601\x60\n\x7d;\n\x7d"
    (translate false state).result = .ok p ∧ i ∈ p.allItems ∧ Unbroken (i.textsWith Affix.texts) ∧
      itemScript "" i = .ok text ∧ shifted true "  " text = moved ∧ itemScript "  " i = .ok moved := by
  intro state i p text moved
  have hp : (translate false state).result = .ok p := by decide +kernel
  have hi : i ∈ p.allItems := List.mem_cons_self ..
  have hu : Unbroken (i.textsWith Affix.texts) := (by decide +kernel : ∀ t ∈ i.textsWith Affix.texts, '\n' ∉ t.toList)
  have htext : itemScript "" i = .ok text := by decide +kernel
  have hmoved : shifted true "  " text = moved := by decide +kernel
  refine ⟨hp, hi, hu, htext, hmoved, ?_⟩
  rw [(items_shift_as_wholes hp i hi hu "  ").1, htext]
  exact congrArg Except.ok hmoved

end GraphScript
