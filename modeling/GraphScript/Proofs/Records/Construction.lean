/-
  GraphScript.Proofs.Records.Construction — a translation that makes its lines record by record.

  In a program some invariants hold by its type: the children of a folder are no folders. Here the
  lines are made as records, of which this cannot be said beforehand. Each setting and each folder
  goes through the check of its kind (`Tree.construct`), a folder once when it opens and again, with
  its children, when it closes. One step over records is one over items, so the records are those of
  the translated program and no check ever fails.

  - `Records.translate_eq`
  - `no_invariant_broken`: of no document, neither on the way to its program nor to its script.
-/
import GraphScript.Proofs.Documents.Declared
import GraphScript.Proofs.Folders.Gathering
import GraphScript.Proofs.Records.Rendering
import GraphScript.Proofs.State.Families
import GraphScript.Proofs.State.Misfits

namespace GraphScript.Records

open Faults Json GraphScript.Tree

/-! ## Settings -/

/-- The fields of a line that the graph has something for. -/
def given (read : Json → Except Fault Tree) (graph : Json.Fields) (sources : List (String × String)) :
    Except Fault (List (String × Tree)) :=
  (sources.filter fun source => graph.has source.2).mapM fun source =>
    (read (graph.get source.2)).map fun value => (source.1, value)

/-- A line is made only if there is a field for it. -/
def axisLine (graph : Json.Fields) (f : Family) : Except Fault (Option Tree) := do
  let entries ← given f.read graph f.sources
  if entries.isEmpty then return none
  return some (← construct f.kind entries)

/-- All fields of a line, in order: those that are given, and null for the others. -/
def filled (entries : List (String × Tree)) (names : List String) : List Tree :=
  names.map fun name => (entries.lookup name).getD .null

theorem arranged_optional (entries : List (String × Tree)) (names : List String) :
    arranged entries (names.map .optional) = .ok (filled entries names) := by
  induction names with
  | nil => rfl
  | cons name names ih =>
    simp only [List.map_cons, arranged, FieldSpec.optional, filled] at ih ⊢
    cases entries.lookup name <;> simp [ih, Except.map]

theorem filled_behind {name : String} {names : List String} (hn : name ∉ names) (value : Tree)
    (entries : List (String × Tree)) : filled ((name, value) :: entries) names = filled entries names := by
  refine List.map_congr_left fun other ho => ?_
  have hne : other ≠ name := by
    rintro rfl
    exact hn ho
  rw [List.lookup_cons, beq_eq_false_iff_ne.mpr hne]

section

variable {read : Json → Except Fault Tree} {graph : Json.Fields} {sources : List (String × String)}
  {entries : List (String × Tree)}

theorem given_cons (name key : String) (rest : List (String × String)) : given read graph ((name, key) :: rest) =
    if graph.has key then (do return (name, ← read (graph.get key)) :: (← given read graph rest))
    else given read graph rest := by
  cases hh : graph.has key with
  | false => simp [given, hh]
  | true =>
    simp only [given, List.filter_cons, hh, if_true, List.mapM_cons]
    cases read (graph.get key) <;> rfl

/-- The fields that are given have the names of their sources. -/
theorem given_names (h : given read graph sources = .ok entries) :
    entries.map Prod.fst = (sources.filter fun source => graph.has source.2).map Prod.fst := by
  unfold given at h
  generalize sources.filter (fun source => graph.has source.2) = present at h ⊢
  induction mapM_eq_ok.mp h with
  | nil => rfl
  | cons he hf ih =>
    obtain ⟨_, -, rfl⟩ := map_eq_ok.mp he
    rw [List.map_cons, List.map_cons, ih (mapM_eq_ok.mpr hf)]

theorem name_of_given (h : given read graph sources = .ok entries) {entry : String × Tree} (he : entry ∈ entries) :
    entry.1 ∈ sources.map Prod.fst := by
  have hmem := List.mem_map_of_mem (f := Prod.fst) he
  rw [given_names h] at hmem
  exact List.map_subset Prod.fst List.filter_sublist.subset hmem

theorem lookup_given {name : String} (h : given read graph sources = .ok entries)
    (hn : name ∉ sources.map Prod.fst) : entries.lookup name = none := by
  rw [List.lookup_eq_none_iff]
  intro entry he
  rw [bne_iff_ne]
  rintro rfl
  exact hn (name_of_given h he)

theorem values_of_given (hn : (sources.map Prod.fst).Nodup) :
    (sources.mapM fun source => if graph.has source.2 then read (graph.get source.2) else .ok .null) =
      (given read graph sources).map fun entries => filled entries (sources.map Prod.fst) := by
  induction sources with
  | nil => rfl
  | cons source rest ih =>
    obtain ⟨name, key⟩ := source
    obtain ⟨hname, hrest⟩ := List.nodup_cons.mp hn
    rw [List.mapM_cons, ih hrest, given_cons]
    cases hg : given read graph rest with
    | error fault =>
      dsimp only
      split
      · cases read (graph.get key) <;> rfl
      · rfl
    | ok entries =>
      have hbehind : ∀ value, filled ((name, value) :: entries) (name :: rest.map Prod.fst) =
          value :: filled entries (rest.map Prod.fst) := by
        intro value
        rw [← filled_behind hname value entries]
        simp [filled]
      have hnone : filled entries (name :: rest.map Prod.fst) = .null :: filled entries (rest.map Prod.fst) := by
        simp [filled, lookup_given hg hname]
      dsimp only
      split
      · cases read (graph.get key) <;> simp [Except.map, hbehind]
      · simp [Except.map, hnone]

/-- What is given is not null. -/
theorem given_not_null (hr : ∀ v t, v ≠ .null → read v = .ok t → t.isNull = false)
    (h : given read graph sources = .ok entries) : ∀ entry ∈ entries, entry.2.isNull = false := by
  intro entry he
  obtain ⟨source, hs, he⟩ := mem_of_mapM h entry he
  obtain ⟨t, ht, rfl⟩ := map_eq_ok.mp he
  exact hr _ t (Json.Fields.has_iff.mp (List.mem_filter.mp hs).2) ht

/-- With a field that is given, a line is not null throughout. -/
theorem filled_not_null (hr : ∀ v t, v ≠ .null → read v = .ok t → t.isNull = false)
    (h : given read graph sources = .ok entries) (he : entries ≠ []) :
    (filled entries (sources.map Prod.fst)).all isNull = false := by
  obtain ⟨entry, hentry⟩ := List.exists_mem_of_ne_nil entries he
  obtain ⟨t, ht⟩ : ∃ t, entries.lookup entry.1 = some t := by
    rw [← Option.ne_none_iff_exists', Ne, List.lookup_eq_none_iff]
    exact fun hne => absurd (hne entry hentry) (by simp)
  obtain ⟨before, after, hsplit, -⟩ := List.lookup_eq_some_iff.mp ht
  have hmem : (entry.1, t) ∈ entries := by simp [hsplit]
  rw [List.all_eq_false]
  refine ⟨t, List.mem_map.mpr ⟨entry.1, name_of_given h hentry, by rw [ht, Option.getD_some]⟩, ?_⟩
  rw [given_not_null hr h _ hmem]
  exact Bool.false_ne_true

end

/-- The lines of a family have a field for each source, and are refused if all of them are null. -/
structure IsAxis (f : Family) : Prop where
  fields : f.kind.fields = (f.sources.map Prod.fst).map .optional
  nodup : (f.sources.map Prod.fst).Nodup
  check : ∀ fields, check f.kind fields =
    if fields.all isNull then .error (.invariant (.noAxis f.kind.name)) else .ok ()
  read : ∀ v t, v ≠ .null → f.read v = .ok t → t.isNull = false

theorem isAxis_of_mem {f : Family} (hf : f ∈ families) : IsAxis f := by
  have hplain : ∀ v t, v ≠ .null → plainTree v = .ok t → t.isNull = false := by
    intro v t hv ht
    obtain rfl := Except.ok.inj ht
    cases v with
    | null => exact absurd rfl hv
    | _ => rfl
  have hvisible : ∀ v t, v ≠ .null → visibilityTree v = .ok t → t.isNull = false := by
    intro v t _ ht
    obtain rfl := Except.ok.inj ht
    rfl
  have harrow : ∀ v t, v ≠ .null → (ArrowMode.ofJson v).map (·.tree) = .ok t → t.isNull = false := by
    intro v t _ ht
    obtain ⟨_, -, rfl⟩ := map_eq_ok.mp ht
    rfl
  simp only [families, List.mem_cons, List.not_mem_nil, or_false] at hf
  rcases hf with rfl | rfl | rfl | rfl | rfl | rfl
  · exact ⟨rfl, by decide, fun _ => rfl, hplain⟩
  · exact ⟨rfl, by decide, fun _ => rfl, hplain⟩
  · exact ⟨rfl, by decide, fun _ => rfl, harrow⟩
  · exact ⟨rfl, by decide, fun _ => rfl, hplain⟩
  · exact ⟨rfl, by decide, fun _ => rfl, hvisible⟩
  · exact ⟨rfl, by decide, fun _ => rfl, hvisible⟩

theorem construct_axis {f : Family} (hf : IsAxis f) {graph : Json.Fields} {entries : List (String × Tree)}
    (hg : given f.read graph f.sources = .ok entries) (he : entries ≠ []) :
    construct f.kind entries = .ok (.record f.kind (filled entries (f.sources.map Prod.fst))) := by
  rw [construct, if_neg, hf.fields, arranged_optional]
  · rw [ok_bind, hf.check, filled_not_null hf.read hg he]
    rfl
  · -- Every field has the name of a source, which the kind has too.
    rw [List.any_eq_true]
    rintro ⟨entry, hentry, hall⟩
    dsimp only at hall
    rw [hf.fields, List.all_map, List.all_eq_true] at hall
    simpa [FieldSpec.optional] using hall _ (name_of_given hg hentry)

/-- The line that is made is the line of the family. -/
theorem axisLine_eq {f : Family} (hf : IsAxis f) (graph : Json.Fields) : axisLine graph f = f.line? graph := by
  have hvalues : f.values graph = _ := values_of_given hf.nodup
  have hempty : (f.sources.filter fun source => graph.has source.2) = [] ↔ ¬ f.triggered graph = true := by
    rw [List.filter_eq_nil_iff, Family.triggered, Bool.not_eq_true, List.any_eq_false]
  unfold axisLine Family.line?
  rw [hvalues]
  by_cases ht : f.triggered graph = true
  · rw [if_pos ht]
    cases hg : given f.read graph f.sources with
    | error fault => rfl
    | ok entries =>
      have he : entries ≠ [] := by
        rintro rfl
        exact hempty.mp (List.map_eq_nil_iff.mp (given_names hg).symm) ht
      simp [he, construct_axis hf hg he, Except.map]
  · have hg : given f.read graph f.sources = .ok [] := by rw [given, hempty.mpr ht]; rfl
    rw [if_neg ht, hg]
    rfl

def seedLine (fs : Json.Fields) : Except Fault (Option Tree) := do
  if fs.has "randomSeed" then return some (← construct .seed [("seed", .plain (fs.get "randomSeed"))])
  return none

def flagsLine (graph : Json) : Except Fault (Option Tree) := do
  let flags := toggleFlags (← graph.fields)
  if flags.isEmpty then return none
  return some (← construct .flags [("flags", treesOf Flag.tree flags)])

def viewportLine (graph : Json) : Except Fault Tree := do
  let viewport ← graph.need "viewport"
  let x ← construct .numberInterval [("start", .plain (← viewport.need "xmin")), ("end", .plain (← viewport.need "xmax"))]
  let y ← construct .numberInterval [("start", .plain (← viewport.need "ymin")), ("end", .plain (← viewport.need "ymax"))]
  construct .viewport [("x", x), ("y", y)]

def settingLines (graphFlags : Bool) (fs : Json.Fields) : Except Fault (List Tree) := do
  let seed ← seedLine fs
  let flags ← if graphFlags then flagsLine (graphOf fs) else .ok none
  let viewport ← viewportLine (graphOf fs)
  let axes ← families.mapM (axisLine (← (graphOf fs).fields))
  return seed.toList ++ flags.toList ++ viewport :: axes.filterMap id

theorem seedLine_eq (fs : Json.Fields) : seedLine fs =
    .ok ((if fs.has "randomSeed" then some (Setting.seed (fs.get "randomSeed")) else none).map Setting.tree) := by
  unfold seedLine
  split <;> rfl

theorem flagsLine_eq (graph : Json) : flagsLine graph = (flagsSetting graph).map (·.map Setting.tree) := by
  unfold flagsLine flagsSetting
  cases graph.fields with
  | error fault => rfl
  | ok fs =>
    simp only [ok_bind]
    cases toggleFlags fs with
    | nil => rfl
    | cons w ws => rfl

theorem viewportLine_eq (graph : Json) : viewportLine graph = (viewportSetting graph).map Setting.tree := by
  unfold viewportLine viewportSetting
  cases graph.need "viewport" with
  | error fault => rfl
  | ok viewport =>
    simp only [ok_bind]
    cases viewport.need "xmin" <;> cases viewport.need "xmax" <;> try rfl
    cases viewport.need "ymin" <;> cases viewport.need "ymax" <;> rfl

theorem axisLines_eq (graph : Json.Fields) : (families.mapM (axisLine graph)).map (·.filterMap id) =
    graph.axisSettings.map (·.map Setting.tree) := by
  have hlines : ∀ fs : List Family, (∀ f ∈ fs, IsAxis f) →
      fs.mapM (axisLine graph) = fs.mapM fun (f : Family) => f.line? graph := by
    intro fs hfs
    induction fs with
    | nil => rfl
    | cons f rest ih =>
      rw [List.mapM_cons, List.mapM_cons, axisLine_eq (hfs f (List.mem_cons_self ..)),
        ih fun f hf => hfs f (List.mem_cons_of_mem _ hf)]
  rw [graph.axisSettings_tree, hlines families fun f => isAxis_of_mem]

theorem settingLines_eq (graphFlags : Bool) (fs : Json.Fields) :
    settingLines graphFlags fs = (stateSettings graphFlags fs).map (·.map Setting.tree) := by
  have hflags : (if graphFlags then flagsLine (graphOf fs) else .ok none) =
      (if graphFlags then flagsSetting (graphOf fs) else .ok none).map (·.map Setting.tree) := by
    cases graphFlags with
    | false => rfl
    | true => exact flagsLine_eq _
  have hsplit : settingLines graphFlags fs = seedLine fs >>= fun seed =>
      (if graphFlags then flagsLine (graphOf fs) else .ok none) >>= fun flags =>
        viewportLine (graphOf fs) >>= fun viewport => (graphOf fs).fields >>= fun graph =>
          (families.mapM (axisLine graph)).map (·.filterMap id) >>= fun axes =>
            pure (seed.toList ++ flags.toList ++ viewport :: axes) := by
    unfold settingLines
    simp only [mapped_bind]
    cases graphFlags <;> rfl
  rw [hsplit, stateSettings_eq, seedLine_eq, hflags, viewportLine_eq, graphSettings, ok_bind]
  simp only [axisLines_eq]
  cases (if graphFlags then flagsSetting (graphOf fs) else .ok none) with
  | error fault => rfl
  | ok flags =>
    cases viewportSetting (graphOf fs) with
    | error fault => rfl
    | ok viewport =>
      cases (graphOf fs).fields with
      | error fault => rfl
      | ok graph =>
        simp only [Except.map, ok_bind]
        cases graph.axisSettings with
        | error fault => rfl
        | ok axes => simp only [ok_bind, pure_eq, List.map_append, List.map_cons, Option.toList_map]

/-! ## Items -/

/-- The record of an item; a folder has no children yet. -/
def itemRecord (i : Item Affix) : Except Fault Tree := do
  let affix ← match i.affix with
    | .leaf l => .ok l.tree
    | .folder f => construct .folder [("title", .plain f.title)]
  construct .item [("affix_group", affix), ("small_flags", treesOf SmallFlag.tree i.smallFlags),
    ("option_groups", treesOf OptionGroup.tree i.options)]

/-- The record of a folder, made anew with these children. -/
def withChildren (children : List Tree) : Tree → Except Fault Tree
  | .record .item [.record .folder [_, title], smallFlags, options] => do
    let affix ← construct .folder [("children", .list children), ("title", title)]
    construct .item [("affix_group", affix), ("small_flags", smallFlags), ("option_groups", options)]
  | _ => .error .wrongType

/-- The folder that is open, with its record as it was when it opened. -/
structure OpenRecord where
  id : Json
  line : Tree
  children : List Tree
  after : List Tree

structure Walk where
  lines : List Tree
  opened : Option OpenRecord

namespace Walk

def close (w : Walk) : Except Fault Walk :=
  match w.opened with
  | none => .ok w
  | some o => do return ⟨w.lines ++ (← withChildren o.children o.line) :: o.after, none⟩

def addLine (w : Walk) (line : Tree) : Walk := { w with lines := w.lines ++ [line] }

/-- Folders are told by their type, before their record is looked at. -/
def step (w : Walk) (j : Json) : Except Fault Walk := do
  let line ← itemRecord (← Item.ofJson j)
  let fs ← j.fields
  if (fs.get "type").is "folder" then
    return { ← w.close with opened := some ⟨fs.get "id", line, [], []⟩ }
  match w.opened with
  | none => return w.addLine line
  | some o =>
    if (fs.get "folderId").equals o.id then
      return { w with opened := some { o with children := o.children ++ [line] } }
    else if (fs.get "id").equals o.id then return { w with opened := some { o with after := o.after ++ [line] } }
    else return (← w.close).addLine line

def run (w : Walk) (items : List Json) : Except Fault (List Tree) := do
  let w ← items.foldlM step w
  return (← w.close).lines

end Walk

/-- The lines of a document, made record by record. -/
def translate (graphFlags : Bool) (state : Json) : Except Fault (List Tree) := do
  let fs ← stateFields state
  let settings ← settingLines graphFlags fs
  let items ← stateItems fs
  return settings ++ (← Walk.run ⟨[], none⟩ items)

/-! ## The walk of records follows the walk of items -/

theorem itemRecord_leaf {i : Item Affix} {l : Leaf} (h : i.affix = .leaf l) :
    itemRecord i = .ok (Item.tree Leaf.tree { i with affix := l }) := by
  rw [itemRecord, h]
  rfl

/-- An item that is no folder is the same line wherever it stands. -/
theorem line_leaf {i : Item Affix} {l : Leaf} (h : i.affix = .leaf l) :
    (Line.item i).tree = Item.tree Leaf.tree { i with affix := l } := by
  rw [Line.tree, Item.tree, h]
  rfl

theorem itemRecord_folder {i : Item Affix} {f : Folder} (h : i.affix = .folder f) (hc : f.children = []) :
    itemRecord i = .ok (Item.tree Folder.tree { i with affix := f }) := by
  rw [itemRecord, h]
  obtain ⟨title, children⟩ := f
  subst hc
  rfl

/-- Children that are no folders pass the check. -/
theorem check_children (children : List (Item Leaf)) (title : Tree) :
    check .folder [treesOf (Item.tree Leaf.tree) children, title] = .ok () := by
  show (children.map (Item.tree Leaf.tree)).forM checkChild = .ok ()
  induction children with
  | nil => rfl
  | cons i rest ih =>
    have hchild : checkChild (i.tree Leaf.tree) = .ok () := by
      obtain ⟨affix, smallFlags, options⟩ := i
      cases affix <;> rfl
    show (checkChild (i.tree Leaf.tree) >>= fun _ => (rest.map (Item.tree Leaf.tree)).forM checkChild) = .ok ()
    rw [hchild, ok_bind, ih]

theorem withChildren_tree (children : List (Item Leaf)) (i : Item Folder) :
    withChildren (children.map (Item.tree Leaf.tree)) (i.tree Folder.tree) =
      .ok (Item.tree Folder.tree { i with affix := { i.affix with children := children } }) := by
  have hfolder : construct .folder [("children", treesOf (Item.tree Leaf.tree) children), ("title", .plain i.affix.title)] =
      .ok (.record .folder [treesOf (Item.tree Leaf.tree) children, .plain i.affix.title]) := by
    show (check .folder [treesOf (Item.tree Leaf.tree) children, .plain i.affix.title] >>= fun _ => .ok _) = _
    rw [check_children, ok_bind]
  show (construct .folder [("children", treesOf (Item.tree Leaf.tree) children), ("title", .plain i.affix.title)] >>=
    fun affix => construct .item [("affix_group", affix), _, _]) = _
  rw [hfolder]
  rfl

/-- The records of an open folder. -/
def OpenRecord.of (o : OpenFolder) : OpenRecord :=
  ⟨o.id, o.item.tree Folder.tree, o.children.map (Item.tree Leaf.tree), o.after.map Line.tree⟩

/-- The records of a walk over items. -/
def Walk.of (w : GraphScript.Walk) : Walk := ⟨w.lines.map Line.tree, w.opened.map .of⟩

namespace Walk

variable (w : GraphScript.Walk)

theorem close_of : (Walk.of w).close = .ok (.of w.close) := by
  obtain ⟨lines, opened, log⟩ := w
  cases opened with
  | none => rfl
  | some o =>
    show (withChildren (o.children.map (Item.tree Leaf.tree)) (o.item.tree Folder.tree) >>= fun line => pure _) = _
    rw [withChildren_tree, ok_bind]
    simp [Walk.of, GraphScript.Walk.close, OpenFolder.lines]
    exact ⟨rfl, rfl⟩

theorem addLine_of {i : Item Affix} {l : Leaf} (h : i.affix = .leaf l) :
    (Walk.of w).addLine (Item.tree Leaf.tree { i with affix := l }) = .of (w.addLine i) := by
  simp [Walk.of, addLine, GraphScript.Walk.addLine, line_leaf h]

/-- One step over records is one over items. -/
theorem step_of {j : Json} {e : Entry} (h : Entry.ofJson j = .ok e) : (Walk.of w).step j = .ok (.of (w.step e)) := by
  simp only [Entry.ofJson, bind_eq_ok, pure_eq, Except.ok.injEq, fields_eq_ok] at h
  obtain ⟨i, hi, fs, rfl, rfl⟩ := h
  have haffix : if (fs.get "type").is "folder" then ∃ f, i.affix = .folder f ∧ f.children = []
    else ∃ l, i.affix = .leaf l := Item.ofJson_affix hi
  obtain ⟨lines, opened, log⟩ := w
  unfold step
  rw [hi, ok_bind]
  split at haffix
  · rename_i hf
    obtain ⟨f, ha, hc⟩ := haffix
    rw [itemRecord_folder ha hc]
    simp only [fields, ok_bind, hf, if_true, close_of]
    simp [GraphScript.Walk.step, ha, GraphScript.Walk.openFolder, Walk.of, OpenRecord.of]
  · rename_i hf
    obtain ⟨l, ha⟩ := haffix
    rw [itemRecord_leaf ha]
    simp only [fields, ok_bind, hf, if_false, Bool.false_eq_true]
    cases opened with
    | none =>
      simp only [GraphScript.Walk.step, ha]
      exact congrArg Except.ok (addLine_of _ ha)
    | some o =>
      show (if (fs.get "folderId").equals o.id then _ else if (fs.get "id").equals o.id then _ else _) = _
      simp only [GraphScript.Walk.step, ha]
      by_cases hchild : (fs.get "folderId").equals o.id = true
      · rw [if_pos hchild, if_pos hchild]
        simp [Walk.of, OpenRecord.of]
      · rw [if_neg hchild, if_neg hchild]
        by_cases hid : (fs.get "id").equals o.id = true
        · rw [if_pos hid, if_pos hid]
          simp [Walk.of, OpenRecord.of, line_leaf ha]
        · rw [if_neg hid, if_neg hid, close_of, ok_bind, addLine_of _ ha]
          rfl

theorem step_error {j : Json} {fault : Fault} (h : Entry.ofJson j = .error fault) :
    (Walk.of w).step j = .error fault := by
  unfold step
  cases hi : Item.ofJson j with
  | error e =>
    rw [Entry.ofJson_error hi] at h
    cases h
    rfl
  | ok i =>
    rw [Entry.ofJson_ok hi] at h
    cases h

theorem run_of (items : List Json) : (Walk.of w).run items = (w.run items).result.map (·.map Line.tree) := by
  induction items generalizing w with
  | nil =>
    rw [run, List.foldlM_nil, pure_eq, ok_bind, close_of]
    rfl
  | cons j rest ih =>
    have hstep : (Walk.of w).run (j :: rest) = (Walk.of w).step j >>= fun w' => w'.run rest := by
      unfold run
      rw [List.foldlM_cons]
      cases (Walk.of w).step j <;> rfl
    rw [hstep, GraphScript.Walk.run]
    cases he : Entry.ofJson j with
    | error fault =>
      rw [step_error w he]
      rfl
    | ok e => rw [step_of w he, ok_bind, ih]

end Walk

theorem translate_eq (graphFlags : Bool) (state : Json) :
    translate graphFlags state = (GraphScript.translate graphFlags state).result.map (·.lines.map Line.tree) := by
  have hitems : ∀ items, Walk.run ⟨[], none⟩ items = (foldersOf items).result.map (·.map Line.tree) :=
    fun items => Walk.run_of .start items
  rw [translate_result, translate, stateParts]
  cases stateFields state with
  | error fault => rfl
  | ok fs =>
    simp only [ok_bind, settingLines_eq]
    cases stateSettings graphFlags fs with
    | error fault => rfl
    | ok settings =>
      cases stateItems fs with
      | error fault => rfl
      | ok items =>
        simp only [pure_eq, ok_bind, hitems]
        cases (foldersOf items).result with
        | error fault => rfl
        | ok lines => simp [Except.map, Line.tree]

end GraphScript.Records

namespace GraphScript

open Faults

theorem failsWith_translate (graphFlags : Bool) (state : Json) :
    FailsWith Fault.IsOfInput (Records.translate graphFlags state) := by
  rw [Records.translate_eq, failsWith_map]
  exact translate_faults graphFlags state

/-- No check of a record fails while a document is translated, and the records are the lines of its program. These have
    a part to show in every setting, and can be written, as lines or as records, without an invariant being broken. -/
theorem no_invariant_broken (graphFlags : Bool) (state : Json) :
    (∀ broken, Records.translate graphFlags state ≠ .error (.invariant broken)) ∧
      Records.translate graphFlags state = (translate graphFlags state).result.map (·.lines.map Line.tree) ∧
      ∀ p, (translate graphFlags state).result = .ok p → p.Populated ∧
        (∀ broken, p.script ≠ .error (.invariant broken)) ∧
        ∀ broken, Tree.script (p.lines.map Line.tree) ≠ .error (.invariant broken) := by
  refine ⟨fun broken h => ?_, Records.translate_eq graphFlags state, fun p hp => ?_⟩
  · exact failsWith_translate graphFlags state _ h
  · have hpop : p.Populated := translate_populated.of_ok hp
    refine ⟨hpop, fun broken h => ?_, fun broken h => ?_⟩
    · exact (Program.script_misfit hpop _ h).isOfInput
    · exact (Program.tree_misfit hpop _ h).isOfInput

/-- A folder that names an open one as its own closes it, and is a line after it. -/
theorem no_invariant_broken_by_a_folder_in_a_folder :
    let bounds : Json := .obj [("xmin", .null), ("xmax", .str "1"), ("ymin", .int 0), ("ymax", .int 1)]
    let state : Json := .obj [("version", .int 8),
      ("graph", .obj [("viewport", bounds), ("squareAxes", .bool false), ("xAxisLabel", .int 3)]),
      ("expressions", .obj [("list", .arr [.obj [("type", .str "folder"), ("id", .str "f")],
        .obj [("type", .str "text"), ("id", .str "a"), ("folderId", .str "f")],
        .obj [("type", .str "folder"), ("id", .str "g"), ("folderId", .str "f")]])])]
    let p : Program := ⟨[.setting (.flags [.word .noSquareAxes]),
      .setting (.viewport (some ⟨.null, .str "1"⟩) (some ⟨.int 0, .int 1⟩)), .setting (.axisLabels (.int 3) .null),
      .item ⟨.folder ⟨.null, [⟨.note .null, [], [.id "a"]⟩]⟩, [], [.id "f"]⟩,
      .item ⟨.folder ⟨.null, []⟩, [], [.id "g"]⟩]⟩
    (translate true state).result = .ok p ∧ p.Populated ∧ (∀ broken, p.script ≠ .error (.invariant broken)) ∧
      ∀ broken, Tree.script (p.lines.map Line.tree) ≠ .error (.invariant broken) := by
  intro bounds state p
  have hp : (translate true state).result = .ok p := rfl
  exact ⟨hp, (no_invariant_broken true state).2.2 p hp⟩

end GraphScript
