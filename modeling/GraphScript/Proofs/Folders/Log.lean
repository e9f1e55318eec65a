/-
  GraphScript.Proofs.Folders.Log — what the walk over the items logs.

  Every folder of the list is opened and closed once, in the order of the list, and is closed before
  the next one is opened; it is closed with as many children as its line has in the end. While a
  folder is open the log ends with it (`Logs`): one step keeps this (`Logs.step`), so the whole walk
  does. A walk that ends early leaves the log where it is, with at most the last folder still open.

  - `folders_are_logged_in_turn`
-/
import GraphScript.Proofs.Folders.Conservation
import Mathlib.Algebra.GroupWithZero.Nat

namespace GraphScript

open Faults

/-- The folders of a list of items. -/
def folderItems (items : List Json) : List Json := items.filter fun j => (j.valueOf "type").is "folder"

def Line.folder? : Line → Option (Item Folder)
  | .item ⟨.folder f, smallFlags, options⟩ => some ⟨f, smallFlags, options⟩
  | _ => none

/-- A folder of the list, and the line that stands for it in the end. -/
abbrev Visit := Json × Item Folder

namespace Visit

/-- What is logged of a folder. -/
def events (v : Visit) : List Event :=
  [.opened (v.1.valueOf "id"), .closed (v.1.valueOf "id") v.2.affix.children.length]

/-- The folders one after another, each opened and closed. -/
def log (visits : List Visit) : List Event := visits.flatMap events

theorem log_concat (visits : List Visit) (v : Visit) : log (visits ++ [v]) = log visits ++ v.events := by
  simp [log]

end Visit

/-- Each of these folders has its line among these, in the same order, and the line is the folder translated, with its
    children filled in. -/
structure Visits (folders : List Json) (lines : List Line) (visits : List Visit) : Prop where
  folders : visits.map Prod.fst = folders
  lines : visits.map Prod.snd = lines.filterMap Line.folder?
  translated : ∀ v ∈ visits, Item.ofJson v.1 = .ok { v.2 with affix := .folder { v.2.affix with children := [] } }

/-- All of these folders are logged, though the last of them may still be open. -/
def IsLogOf (log : List Event) (visits : List Visit) : Prop :=
  log = Visit.log visits ∨
    ∃ earlier last, visits = earlier ++ [last] ∧ log = Visit.log earlier ++ [.opened (last.1.valueOf "id")]

/-- The log of a walk over these items so far: of each folder that is closed, and that the last one is open. -/
def Logs (seen : List Json) (w : Walk) : Prop :=
  match w.opened with
  | none => ∃ visits, Visits (folderItems seen) w.lines visits ∧ w.log = Visit.log visits
  | some o => ∃ earlier j visits, folderItems seen = earlier ++ [j] ∧ Visits earlier w.lines visits ∧
      o.after.filterMap Line.folder? = [] ∧ o.id = j.valueOf "id" ∧
      Item.ofJson j = .ok { o.item with affix := .folder { o.item.affix with children := [] } } ∧
      w.log = Visit.log visits ++ [.opened (j.valueOf "id")]

section

variable {seen items before after part rest : List Json} {j : Json} {t : Item Affix} {w : Walk} {lines : List Line}

/-! ## Folders and other items -/

theorem folderItems_append (seen rest : List Json) :
    folderItems (seen ++ rest) = folderItems seen ++ folderItems rest :=
  List.filter_append ..

theorem folderItems_folder {f : Folder} (h : Item.ofJson j = .ok t) (ht : t.affix = .folder f) :
    folderItems [j] = [j] ∧ f.children = [] := by
  have ha := Item.ofJson_affix h
  split at ha
  · rename_i hf
    obtain ⟨g, hg, hc⟩ := ha
    obtain rfl := Affix.folder.inj (ht.symm.trans hg)
    exact ⟨List.filter_cons_of_pos hf, hc⟩
  · obtain ⟨l, hl⟩ := ha
    cases ht.symm.trans hl

theorem folderItems_leaf {l : Leaf} (h : Item.ofJson j = .ok t) (ht : t.affix = .leaf l) : folderItems [j] = [] := by
  have ha := Item.ofJson_affix h
  split at ha
  · obtain ⟨f, hf, -⟩ := ha
    cases ht.symm.trans hf
  · rename_i hf
    exact List.filter_cons_of_neg hf

theorem folder?_leaf {l : Leaf} (ht : t.affix = .leaf l) : (Line.item t).folder? = none := by
  obtain ⟨affix, smallFlags, options⟩ := t
  subst ht
  rfl

theorem Visits.addLine {visits : List Visit} {folders : List Json} {l : Leaf} (h : Visits folders lines visits)
    (ht : t.affix = .leaf l) : Visits folders (lines ++ [.item t]) visits :=
  ⟨h.folders, by rw [h.lines, List.filterMap_append]; simp [folder?_leaf ht], h.translated⟩

/-! ## One step -/

/-- The open folder is closed with the children that it has. -/
theorem Logs.close (h : Logs seen w) : ∃ visits, Visits (folderItems seen) w.close.lines visits ∧
    w.close.log = Visit.log visits ∧ IsLogOf w.log visits := by
  obtain ⟨lines, opened, log⟩ := w
  cases opened with
  | none =>
    obtain ⟨visits, hv, hlog⟩ := h
    exact ⟨visits, hv, hlog, .inl hlog⟩
  | some o =>
    obtain ⟨earlier, j, visits, hseen, hv, hafter, hid, hj, hlog⟩ := h
    let closed : Item Folder := { o.item with affix := { o.item.affix with children := o.children } }
    refine ⟨visits ++ [(j, closed)], ⟨?_, ?_, ?_⟩, ?_, .inr ⟨visits, (j, closed), rfl, hlog⟩⟩
    · rw [hseen, List.map_append, hv.folders]
      rfl
    · have hlines : (lines ++ o.lines).filterMap Line.folder? = lines.filterMap Line.folder? ++ [closed] := by
        rw [List.filterMap_append, OpenFolder.lines, List.filterMap_cons, hafter]
        rfl
      rw [List.map_append, hv.lines]
      exact hlines.symm
    · intro v hv'
      rcases List.mem_append.mp hv' with hv' | hv'
      · exact hv.translated v hv'
      · rw [List.mem_singleton.mp hv']
        exact hj
    · rw [Visit.log_concat]
      show log ++ [Event.closed o.id o.children.length] = _
      rw [show log = _ from hlog, hid, List.append_assoc]
      rfl

theorem Logs.step (h : Logs seen w) (hj : Item.ofJson j = .ok t) :
    Logs (seen ++ [j]) (w.step ⟨j.valueOf "id", j.valueOf "folderId", t⟩) := by
  cases ht : t.affix with
  | folder f =>
    obtain ⟨hfolder, hchildren⟩ := folderItems_folder hj ht
    obtain ⟨visits, hv, hlog, -⟩ := h.close
    simp only [Walk.step, ht]
    refine ⟨folderItems seen, j, visits, ?_, hv, rfl, rfl, ?_, congrArg (· ++ [Event.opened _]) hlog⟩
    · rw [folderItems_append, hfolder]
    · rw [hj, ← hchildren, ← ht]
  | leaf l =>
    have hseen : folderItems (seen ++ [j]) = folderItems seen := by
      rw [folderItems_append, folderItems_leaf hj ht, List.append_nil]
    obtain ⟨visits, hv, hlog, -⟩ := h.close
    have haside : Logs (seen ++ [j]) (w.close.addLine t) := by
      have hnone : w.close.opened = none := by
        unfold Walk.close
        split <;> simp_all
      simp only [Logs, Walk.addLine, hnone, hseen]
      exact ⟨visits, hv.addLine ht, hlog⟩
    cases ho : w.opened with
    | none =>
      have hclosed : w.close = w := by rw [Walk.close, ho]
      rw [hclosed] at haside
      simpa only [Walk.step, ht, ho] using haside
    | some o =>
      simp only [Logs, ho] at h
      obtain ⟨earlier, k, visits, hk, hv, hafter, hid, hitem, hlog⟩ := h
      simp only [Walk.step, ht, ho]
      split
      · simp only [Logs, hseen]
        exact ⟨earlier, k, visits, hk, hv, hafter, hid, hitem, hlog⟩
      · split
        · simp only [Logs, hseen]
          refine ⟨earlier, k, visits, hk, hv, ?_, hid, hitem, hlog⟩
          rw [List.filterMap_append, hafter]
          simp [folder?_leaf ht]
        · exact haside

/-! ## The whole walk -/

theorem logs_start : Logs [] Walk.start := ⟨[], ⟨rfl, rfl, List.forall_mem_nil _⟩, rfl⟩

/-- Over items that can all be translated the walk goes on to what comes behind them. -/
theorem Logs.run (hpart : ∀ b ∈ part, ∃ t, Item.ofJson b = .ok t) (h : Logs seen w) :
    ∃ w', Logs (seen ++ part) w' ∧ ∀ rest, w.run (part ++ rest) = w'.run rest := by
  induction part generalizing seen w with
  | nil => exact ⟨w, by rwa [List.append_nil], fun _ => rfl⟩
  | cons j part ih =>
    obtain ⟨t, hj⟩ := hpart j (List.mem_cons_self ..)
    obtain ⟨w', hw', hr⟩ := ih (fun b hb => hpart b (List.mem_cons_of_mem _ hb)) (h.step hj)
    refine ⟨w', by rwa [List.append_assoc] at hw', fun rest => ?_⟩
    rw [← hr, List.cons_append, Walk.run, Entry.ofJson_ok hj]

/-- What ends a walk is the first item that cannot be translated. -/
theorem Walk.run_error {fault : Fault} (h : (w.run items).result = .error fault) :
    ∃ before j after, items = before ++ j :: after ∧ (∀ b ∈ before, ∃ t, Item.ofJson b = .ok t) ∧
      Item.ofJson j = .error fault := by
  induction items generalizing w with
  | nil => cases h
  | cons j rest ih =>
    cases hj : Item.ofJson j with
    | error found =>
      rw [Walk.run, Entry.ofJson_error hj] at h
      cases h
      exact ⟨[], j, rest, rfl, List.forall_mem_nil _, hj⟩
    | ok t =>
      rw [Walk.run, Entry.ofJson_ok hj] at h
      obtain ⟨before, k, after, rfl, hbefore, hk⟩ := ih h
      exact ⟨j :: before, k, after, rfl, List.forall_mem_cons.mpr ⟨⟨t, hj⟩, hbefore⟩, hk⟩

theorem children_of_folder? (lines : List Line) : (lines.flatMap Line.children).length =
    ((lines.filterMap Line.folder?).map fun f => f.affix.children.length).sum := by
  induction lines with
  | nil => rfl
  | cons l lines ih =>
    rw [List.flatMap_cons, List.length_append, ih, List.filterMap_cons]
    cases l with
    | setting s => exact Nat.zero_add _
    | item i =>
      obtain ⟨affix, smallFlags, options⟩ := i
      cases affix with
      | leaf l => exact Nat.zero_add _
      | folder f => exact (List.sum_cons ..).symm

end

/-- The log of a walk that goes to the end has each folder of the list opened and at once closed, in the order of the
    list, with as many children as its line has; together these are the items that have no line of their own. A walk
    that ends at an item that cannot be translated has logged the same of the items before, except that the folder
    that is open at that point, which is the last, is not closed. -/
theorem folders_are_logged_in_turn (items : List Json) :
    (∀ lines, (foldersOf items).result = .ok lines →
      ∃ visits, Visits (folderItems items) lines visits ∧ (foldersOf items).log = Visit.log visits ∧
        (visits.map fun v => v.2.affix.children.length).sum + lines.length = items.length) ∧
    ∀ fault, (foldersOf items).result = .error fault →
      ∃ before j after lines visits, items = before ++ j :: after ∧ Item.ofJson j = .error fault ∧
        (foldersOf before).result = .ok lines ∧ Visits (folderItems before) lines visits ∧
        (foldersOf before).log = Visit.log visits ∧ IsLogOf (foldersOf items).log visits := by
  refine ⟨fun lines h => ?_, fun fault h => ?_⟩
  · obtain ⟨translated, ht⟩ := Walk.run_translates h
    have hitems : ∀ b ∈ items, ∃ t, Item.ofJson b = .ok t := fun b hb =>
      (result_of_mapM ht b hb).imp fun _ ht => ht.2
    obtain ⟨w, hw, hr⟩ := logs_start.run hitems
    replace hr := hr []
    rw [List.append_nil] at hr
    obtain ⟨visits, hv, hlog, -⟩ := hw.close
    have hlines : w.close.lines = lines := Except.ok.inj ((congrArg Outcome.result hr).symm.trans h)
    rw [hlines] at hv
    refine ⟨visits, hv, (congrArg Outcome.log hr).trans hlog, ?_⟩
    rw [← foldersOf_length h, children_of_folder?, ← hv.lines, List.map_map, Nat.add_comm]
    rfl
  · obtain ⟨before, j, after, rfl, hbefore, hj⟩ := Walk.run_error h
    obtain ⟨w, hw, hr⟩ := logs_start.run hbefore
    obtain ⟨visits, hv, hlog, hopen⟩ := hw.close
    have hfault : (foldersOf (before ++ j :: after)).log = w.log := by
      rw [foldersOf, hr, Walk.run, Entry.ofJson_error hj]
    have hdone := hr []
    rw [List.append_nil] at hdone
    exact ⟨before, j, after, w.close.lines, visits, rfl, hj, congrArg Outcome.result hdone, hv,
      (congrArg Outcome.log hdone).trans hlog, hfault ▸ hopen⟩

/-- Two folders of one id, the first with a child and a note that stands by itself; then the same list with an item of
    an unknown kind at its end. -/
theorem folders_of_one_id_are_logged_in_turn :
    let folder : Json := .obj [("type", .str "folder"), ("id", .str "f")]
    let note : Json := .obj [("type", .str "text"), ("id", .str "f")]
    let child : Json := .obj [("type", .str "text"), ("id", .str "a"), ("folderId", .str "f")]
    let other : Json := .obj [("type", .str "axis"), ("id", .str "f")]
    let f (children : List (Item Leaf)) : Item Folder := ⟨⟨.null, children⟩, [], [.id "f"]⟩
    let leaf : Item Leaf := ⟨.note .null, [], [.id "a"]⟩
    let items := [folder, note, child, folder]
    (foldersOf items).log = [.opened (.str "f"), .closed (.str "f") 1, .opened (.str "f"), .closed (.str "f") 0] ∧
      (∃ visits, Visits [folder, folder] [.item ⟨.folder (f [leaf]).affix, [], [.id "f"]⟩,
        .item ⟨.leaf (.note .null), [], [.id "f"]⟩, .item ⟨.folder (f []).affix, [], [.id "f"]⟩] visits ∧
        (foldersOf items).log = Visit.log visits ∧
        (visits.map fun v => v.2.affix.children.length).sum + 3 = 4) ∧
      (foldersOf (items ++ [other])).log = [.opened (.str "f"), .closed (.str "f") 1, .opened (.str "f")] ∧
      ∃ before j after lines visits, items ++ [other] = before ++ j :: after ∧
        Item.ofJson j = .error (.unsupportedItem (.str "axis") (.str "f")) ∧ (foldersOf before).result = .ok lines ∧
        Visits (folderItems before) lines visits ∧ (foldersOf before).log = Visit.log visits ∧
        IsLogOf (foldersOf (items ++ [other])).log visits := by
  intro folder note child other f leaf items
  exact ⟨rfl, (folders_are_logged_in_turn items).1 _ rfl, rfl, (folders_are_logged_in_turn _).2 _ rfl⟩

end GraphScript
