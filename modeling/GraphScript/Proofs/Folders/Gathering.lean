/-
  GraphScript.Proofs.Folders.Gathering — the walk over the items arrives at their layout.

  After `n` items the walk holds the lines of the first `n` positions: those before the open folder,
  the folder itself with its children, and those after it (`Follows`). One step keeps this
  (`step_follows`), so the whole walk does.

  - `foldersOf_layout`: the lines are the layout with every position filled by its item; an item
    that cannot be translated ends the walk with its fault.
-/
import GraphScript.Proofs.Folders.Layout
import GraphScript.State.Folders

namespace GraphScript

open Faults Layout

def Item.ofLeaf (i : Item Leaf) : Item Affix := { i with affix := .leaf i.affix }

/-- The item of a line by itself, and its children. -/
def Item.apart (i : Item Affix) : Item Affix × List (Item Affix) :=
  match i.affix with
  | .leaf _ => (i, [])
  | .folder f => ({ i with affix := .folder { f with children := [] } }, f.children.map Item.ofLeaf)

/-- A line as a place of the layout, filled with items. -/
def Line.place : Line → Option (Item Affix) × List (Option (Item Affix))
  | .setting _ => (none, [])
  | .item i => (some i.apart.1, i.apart.2.map some)

/-! ## The walk over entries -/

theorem Entry.ofJson_ok {j : Json} {t : Item Affix} (h : Item.ofJson j = .ok t) :
    Entry.ofJson j = .ok ⟨j.valueOf "id", j.valueOf "folderId", t⟩ := by
  obtain ⟨fs, id, styling, kind, affix, groups, rfl, -⟩ := Item.ofJson_eq_ok h
  simp only [Entry.ofJson, h, ok_bind, Json.fields]
  rfl

theorem Entry.ofJson_error {j : Json} {fault : Fault} (h : Item.ofJson j = .error fault) :
    Entry.ofJson j = .error fault := by
  simp only [Entry.ofJson, h, error_bind]

/-! ## One more position -/

section

variable {items : List Json} {translated : List (Item Affix)} {n k : Nat}

/-- A position of the layout of the first `n` items, filled with items. -/
def placeOf (items : List Json) (translated : List (Item Affix)) (n i : Nat) :
    Option (Item Affix) × List (Option (Item Affix)) :=
  (translated[i]?, (childrenOf items n i).map (translated[·]?))

theorem childrenOf_succ_child (h : IsChild items k n) : childrenOf items (n + 1) k = childrenOf items n k ++ [n] := by
  simp [childrenOf, List.range_succ, List.filter_append, h]

theorem childrenOf_succ (h : ¬ IsChild items k n) : childrenOf items (n + 1) k = childrenOf items n k := by
  simp [childrenOf, List.range_succ, List.filter_append, h]

theorem childrenOf_self : childrenOf items (n + 1) n = [] := by
  refine List.filter_eq_nil_iff.mpr fun i hi => ?_
  have := List.mem_range.mp hi
  simp only [decide_eq_true_eq]
  exact fun h => absurd h.2.2.1 (by omega)

theorem outermost_succ (h : StandsAlone items n) : outermost items (n + 1) = outermost items n ++ [n] := by
  simp [outermost, List.range_succ, List.filter_append, h]

theorem outermost_succ_child (h : IsChild items k n) : outermost items (n + 1) = outermost items n := by
  have : ¬ StandsAlone items n := fun hs => hs k h.2.2.1 h
  simp [outermost, List.range_succ, List.filter_append, this]

theorem map_placeOf_succ {l : List Nat} (h : ∀ i ∈ l, ¬ IsChild items i n) :
    l.map (placeOf items translated (n + 1)) = l.map (placeOf items translated n) :=
  List.map_congr_left fun i hi => by rw [placeOf, placeOf, childrenOf_succ (h i hi)]

theorem placeOf_self : placeOf items translated (n + 1) n = (translated[n]?, []) := by
  rw [placeOf, childrenOf_self, List.map_nil]

end

/-! ## What the walk holds -/

/-- The folder that the walk has open, at position `k` between the positions `before` and `after`. -/
structure Holds (items : List Json) (translated : List (Item Affix)) (n : Nat) (lines : List Line) (o : OpenFolder)
    (k : Nat) (before after : List Nat) : Prop where
  isOpen : IsOpen items k n
  id : o.id = valueAt items k "id"
  split : outermost items n = before ++ k :: after
  item : translated[k]? = some { o.item with affix := .folder { o.item.affix with children := [] } }
  children : o.children.map (some ·.ofLeaf) = (childrenOf items n k).map (translated[·]?)
  before : lines.map Line.place = before.map (placeOf items translated n)
  after : o.after.map Line.place = after.map (placeOf items translated n)

/-- The walk stands before item `n`. -/
def Follows (items : List Json) (translated : List (Item Affix)) (n : Nat) (w : Walk) : Prop :=
  match w.opened with
  | none => (∀ k, ¬ IsOpen items k n) ∧ w.lines.map Line.place = (outermost items n).map (placeOf items translated n)
  | some o => ∃ k before after, Holds items translated n w.lines o k before after

section

variable {items : List Json} {translated : List (Item Affix)} {n k : Nat} {w : Walk}

theorem follows_start : Follows items translated 0 Walk.start :=
  ⟨fun _ h => absurd h.1 (Nat.not_lt_zero _), rfl⟩

theorem Line.place_folder (i : Item Folder) (children : List (Item Leaf)) :
    Line.place (.item { i with affix := .folder { i.affix with children := children } }) =
      (some { i with affix := .folder { i.affix with children := [] } }, children.map (some ·.ofLeaf)) := by
  simp [Line.place, Item.apart]

/-- Closing the open folder puts every line of the first `n` items in its place. -/
theorem Follows.close (h : Follows items translated n w) :
    w.close.lines.map Line.place = (outermost items n).map (placeOf items translated n) := by
  obtain ⟨lines, opened, log⟩ := w
  cases opened with
  | none => exact h.2
  | some o =>
    obtain ⟨k, before, after, ho⟩ := h
    simp only [Walk.close, OpenFolder.lines, List.map_append, List.map_cons, Line.place_folder, ho.before, ho.after,
      ho.split, ho.children, placeOf, ho.item]

/-! ## One step -/

/-- A folder closes the one before and opens itself. -/
theorem step_folder {f : Folder} {t : Item Affix} (hw : Follows items translated n w) (hf : IsFolder items n)
    (ht : translated[n]? = some t) (ha : t.affix = .folder f) (hc : f.children = []) :
    Follows items translated (n + 1) (w.step ⟨valueAt items n "id", valueAt items n "folderId", t⟩) := by
  have hno : ∀ i ∈ outermost items n, ¬ IsChild items i n := fun i _ h => h.1 hf
  simp only [Walk.step, ha]
  refine ⟨n, outermost items n, [], isOpen_self.mpr hf, rfl, outermost_succ hf.standsAlone, ?_, ?_, ?_, rfl⟩
  · rw [ht, ← hc, ← ha]
  · rw [childrenOf_self]; rfl
  · rw [map_placeOf_succ hno]
    exact hw.close

theorem not_isOpen_succ (h : ¬ IsFolder items n) (hn : ∀ k, IsOpen items k n → ¬ KeepsOpen items k n) (k : Nat) :
    ¬ IsOpen items k (n + 1) := by
  intro ho
  rcases Nat.lt_succ_iff_lt_or_eq.mp ho.1 with hk | rfl
  · exact hn k ((isOpen_succ hk).mp ho).1 ((isOpen_succ hk).mp ho).2
  · exact h (isOpen_self.mp ho)

/-- An item that stands by itself comes after the lines that are there. -/
theorem addLine_places {t : Item Affix} {l : Leaf} {lines : List Line} (ht : translated[n]? = some t)
    (ha : t.affix = .leaf l) (hs : StandsAlone items n)
    (hl : lines.map Line.place = (outermost items n).map (placeOf items translated n)) :
    (lines ++ [Line.item t]).map Line.place = (outermost items (n + 1)).map (placeOf items translated (n + 1)) := by
  have hno : ∀ i ∈ outermost items n, ¬ IsChild items i n := fun i hi => hs i (mem_outermost.mp hi).1
  rw [outermost_succ hs, List.map_append, List.map_append, map_placeOf_succ hno, hl]
  simp [placeOf_self, ht, Line.place, Item.apart, ha]

/-- Without an open folder, an item that is no folder stands by itself. -/
theorem step_outside {t : Item Affix} {l : Leaf} (hw : Follows items translated n w) (hf : ¬ IsFolder items n)
    (ht : translated[n]? = some t) (ha : t.affix = .leaf l) (ho : w.opened = none) :
    Follows items translated (n + 1) (w.step ⟨valueAt items n "id", valueAt items n "folderId", t⟩) := by
  obtain ⟨lines, opened, log⟩ := w
  subst ho
  have hs : StandsAlone items n := fun k _ hc => hw.1 k hc.2.2
  simp only [Walk.step, ha]
  exact ⟨not_isOpen_succ hf fun k h => absurd h (hw.1 k), addLine_places ht ha hs hw.2⟩

/-- The item behind an open folder: a child of it, or a line after it, or the one that closes it. -/
theorem step_behind {t : Item Affix} {l : Leaf} {o : OpenFolder} (hw : Follows items translated n w)
    (hf : ¬ IsFolder items n) (ht : translated[n]? = some t) (ha : t.affix = .leaf l) (ho : w.opened = some o) :
    Follows items translated (n + 1) (w.step ⟨valueAt items n "id", valueAt items n "folderId", t⟩) := by
  have hclosed := hw.close
  obtain ⟨lines, opened, log⟩ := w
  subst ho
  obtain ⟨k, before, after, h⟩ := hw
  have hk := h.isOpen.1
  -- Nothing but the open folder can have item `n` as its child.
  have honly : ∀ i, IsChild items i n → i = k := fun i hc => hc.2.2.unique h.isOpen
  have hnodup : (before ++ k :: after).Nodup := h.split ▸ List.nodup_range.filter _
  simp only [Walk.step, ha]
  rw [h.id]
  split
  · rename_i hn
    have hc : IsChild items k n := ⟨hf, hn, h.isOpen⟩
    have hbefore : ∀ i ∈ before, ¬ IsChild items i n := by
      intro i hi hci
      rw [honly i hci] at hi
      exact (List.nodup_append.mp hnodup).2.2 k hi k (List.mem_cons_self ..) rfl
    have hafter : ∀ i ∈ after, ¬ IsChild items i n := by
      intro i hi hci
      rw [honly i hci] at hi
      exact (List.nodup_cons.mp (List.nodup_append.mp hnodup).2.1).1 hi
    refine ⟨k, before, after, (isOpen_succ hk).mpr ⟨h.isOpen, hf, .inl hn⟩, rfl, ?_, h.item, ?_, ?_, ?_⟩
    · rw [outermost_succ_child hc, h.split]
    · rw [childrenOf_succ_child hc, List.map_append, List.map_append, h.children]
      simp [Item.ofLeaf, ht, ← ha]
    · rw [map_placeOf_succ hbefore, h.before]
    · rw [map_placeOf_succ hafter, h.after]
  · rename_i hn
    have hs : StandsAlone items n := fun i _ hc => by
      rw [honly i hc] at hc
      exact hn hc.2.1
    split
    · rename_i hi
      have hno : ∀ i ∈ before ++ k :: after, ¬ IsChild items i n := fun i hi =>
        hs i (mem_outermost.mp (h.split ▸ hi)).1
      refine ⟨k, before, after ++ [n], (isOpen_succ hk).mpr ⟨h.isOpen, hf, .inr hi⟩, rfl, ?_, h.item, ?_, ?_, ?_⟩
      · rw [outermost_succ hs, h.split, List.append_assoc, List.cons_append]
      · rw [childrenOf_succ (hno k (by simp)), h.children]
      · rw [map_placeOf_succ fun i hi => hno i (by simp [hi]), h.before]
      · rw [List.map_append, List.map_append, map_placeOf_succ fun i hi => hno i (by simp [hi]), h.after]
        simp [placeOf_self, ht, Line.place, Item.apart, ha]
    · rename_i hi
      refine ⟨not_isOpen_succ hf fun i hoi hkeep => ?_, addLine_places ht ha hs hclosed⟩
      rw [hoi.unique h.isOpen] at hkeep
      exact hkeep.2.elim hn hi

/-- One step of the walk goes on to the next position. -/
theorem step_follows {j : Json} {t : Item Affix} (hw : Follows items translated n w) (hj : items[n]? = some j)
    (ht : translated[n]? = some t) (hok : Item.ofJson j = .ok t) :
    Follows items translated (n + 1) (w.step ⟨j.valueOf "id", j.valueOf "folderId", t⟩) := by
  have hv : ∀ key, j.valueOf key = valueAt items n key := fun key => by
    rw [valueAt, List.getD_eq_getElem?_getD, hj, Option.getD_some]
  have ha := Item.ofJson_affix hok
  rw [hv] at ha
  rw [hv, hv]
  split at ha
  · rename_i hf
    obtain ⟨f, ha, hc⟩ := ha
    exact step_folder hw hf ht ha hc
  · rename_i hf
    obtain ⟨l, ha⟩ := ha
    cases ho : w.opened with
    | none => exact step_outside hw hf ht ha ho
    | some o => exact step_behind hw hf ht ha ho

end

/-! ## The whole walk -/

theorem head_of_drop {α : Type} {l rest : List α} {a : α} {n : Nat} (h : l.drop n = a :: rest) :
    l[n]? = some a ∧ l.drop (n + 1) = rest := by
  constructor
  · rw [← Nat.add_zero n, ← List.getElem?_drop, h, List.getElem?_cons_zero]
  · rw [← List.tail_drop, h, List.tail_cons]

/-- Over items that can all be translated the walk goes on to what comes behind them. -/
theorem Walk.run_follows (items rest : List Json) {part : List Json} {translated parts : List (Item Affix)}
    (h : List.Forall₂ (fun j t => Item.ofJson j = .ok t) part parts) :
    ∀ {n : Nat} {w : Walk}, items.drop n = part ++ rest → translated.drop n = parts → Follows items translated n w →
      ∃ w', Follows items translated (n + part.length) w' ∧ w.run (part ++ rest) = w'.run rest := by
  induction h with
  | nil => exact fun _ _ hw => ⟨_, hw, rfl⟩
  | @cons j t part parts hj _ ih =>
    intro n w hi ht hw
    obtain ⟨hjn, hi⟩ := head_of_drop hi
    obtain ⟨htn, ht⟩ := head_of_drop ht
    obtain ⟨w', hw', hr⟩ := ih hi ht (step_follows hw hjn htn hj)
    refine ⟨w', by rw [List.length_cons, Nat.add_comm part.length, ← Nat.add_assoc]; exact hw', ?_⟩
    rw [← hr, List.cons_append, Walk.run, Entry.ofJson_ok hj]

/-- The walk ends at the first item that cannot be translated, with the fault of that item. -/
theorem foldersOf_fault {before after : List Json} {j : Json} {fault : Fault}
    (hbefore : ∀ b ∈ before, ∃ t, Item.ofJson b = .ok t) (hj : Item.ofJson j = .error fault) :
    (foldersOf (before ++ j :: after)).result = .error fault := by
  obtain ⟨translated, ht⟩ := mapM_of_forall hbefore
  obtain ⟨w, -, hr⟩ := Walk.run_follows (before ++ j :: after) _ (mapM_eq_ok.mp ht) rfl rfl follows_start
  rw [foldersOf, hr, Walk.run, Entry.ofJson_error hj]

/-- The walk gathers the items as the layout has them. -/
theorem foldersOf_layout {items : List Json} {translated : List (Item Affix)}
    (h : items.mapM Item.ofJson = .ok translated) :
    ∃ lines, (foldersOf items).result = .ok lines ∧
      lines.map Line.place = (layout items).map fun (i, children) => (translated[i]?, children.map (translated[·]?)) := by
  obtain ⟨w, hw, hr⟩ := Walk.run_follows items [] (mapM_eq_ok.mp h) (by rw [List.append_nil, List.drop_zero]) rfl
    follows_start
  rw [List.append_nil, Nat.zero_add] at *
  refine ⟨w.close.lines, by rw [foldersOf, hr]; rfl, ?_⟩
  rw [hw.close, layout, List.map_map]
  rfl

/-- The walk arrives only if every item can be translated. -/
theorem Walk.run_translates {items : List Json} {w : Walk} {lines : List Line} (h : (w.run items).result = .ok lines) :
    ∃ translated, items.mapM Item.ofJson = .ok translated := by
  induction items generalizing w with
  | nil => exact ⟨[], rfl⟩
  | cons j rest ih =>
    cases hj : Item.ofJson j with
    | error fault =>
      rw [Walk.run, Entry.ofJson_error hj] at h
      cases h
    | ok t =>
      rw [Walk.run, Entry.ofJson_ok hj] at h
      obtain ⟨translated, ht⟩ := ih h
      exact ⟨t :: translated, by rw [List.mapM_cons, hj, ht]; rfl⟩

/-- Every line is a translated item, a folder one with translated items for children. -/
theorem foldersOf_items {items : List Json} {lines : List Line} (h : (foldersOf items).result = .ok lines) :
    ∀ l ∈ lines, ∃ i, l = .item i ∧ ∀ t ∈ i.apart.1 :: i.apart.2, ∃ j ∈ items, Item.ofJson j = .ok t := by
  obtain ⟨translated, ht⟩ := Walk.run_translates h
  obtain ⟨lines', hr, hl⟩ := foldersOf_layout ht
  obtain rfl : lines' = lines := Except.ok.inj (hr.symm.trans h)
  have hmem : ∀ {n : Nat} {t}, translated[n]? = some t → ∃ j ∈ items, Item.ofJson j = .ok t :=
    fun hn => mem_of_mapM ht _ (List.mem_of_getElem? hn)
  intro l hlm
  have hp := List.mem_map_of_mem (f := Line.place) hlm
  rw [hl] at hp
  obtain ⟨⟨n, children⟩, hn, hp⟩ := List.mem_map.mp hp
  cases l with
  | setting s =>
    have hlt := (mem_layout.mp hn).1
    rw [(mapM_eq_ok.mp ht).length_eq] at hlt
    have := congrArg Prod.fst hp
    simp [Line.place, hlt] at this
  | item i =>
    rw [Line.place, Prod.mk.injEq] at hp
    refine ⟨i, rfl, fun t htm => ?_⟩
    rcases List.mem_cons.mp htm with rfl | htm
    · exact hmem hp.1
    · have hs : some t ∈ children.map (translated[·]?) := hp.2 ▸ List.mem_map_of_mem htm
      obtain ⟨c, -, hc⟩ := List.mem_map.mp hs
      exact hmem hc

/-- Items that can all be translated stand, each translated, where the layout has them: an item is in the place of
    a folder exactly when it is its child, outermost and inner places are in the order of the list, and no
    item is missing or there twice. Otherwise the walk ends with the fault of the first item that has one. -/
theorem gathered_by_layout (items : List Json) :
    (∀ translated, items.mapM Item.ofJson = .ok translated →
      ∃ lines, (foldersOf items).result = .ok lines ∧
        lines.map Line.place =
          (layout items).map fun (i, children) => (translated[i]?, children.map (translated[·]?))) ∧
    (∀ k children i, (k, children) ∈ layout items → (i ∈ children ↔ i < items.length ∧ IsChild items k i)) ∧
    (∀ i, i ∈ (layout items).map (·.1) ↔ i < items.length ∧ ∀ k, k < i → ¬ IsChild items k i) ∧
    ((layout items).map (·.1)).Pairwise (· < ·) ∧
    (∀ k children, (k, children) ∈ layout items → children.Pairwise (· < ·)) ∧
    (depthFirst (layout items)).Perm (List.range items.length) ∧
    (∀ before j after fault, items = before ++ j :: after → (∀ b ∈ before, ∃ t, Item.ofJson b = .ok t) →
      Item.ofJson j = .error fault → (foldersOf items).result = .error fault) := by
  refine ⟨fun _ => foldersOf_layout, fun k children i h => ?_, fun i => ?_, ?_, fun k children h => ?_,
    depthFirst_perm, ?_⟩
  · rw [(mem_layout.mp h).2.2, mem_childrenOf]
  · rw [layout_fst, mem_outermost]
    rfl
  · rw [layout_fst]
    exact pairwise_lt_filter_range ..
  · rw [(mem_layout.mp h).2.2]
    exact pairwise_lt_filter_range ..
  · intro before j after fault et hbefore hj
    subst et
    exact foldersOf_fault hbefore hj

/-- A folder, two children with a note between them that has the folder's id, and a folder with the same id behind;
    then the same list with an item of an unknown kind before the last. -/
theorem gathered_by_layout_around_a_note :
    let folder : Json := .obj [("type", .str "folder"), ("id", .str "f")]
    let note : Json := .obj [("type", .str "text"), ("id", .str "f"), ("folderId", .int 1)]
    let child : Json := .obj [("type", .str "text"), ("id", .bool true), ("folderId", .str "f")]
    let other : Json := .obj [("type", .str "axis"), ("id", .str "f")]
    (∃ lines, (foldersOf [folder, child, note, child, folder, child]).result = .ok lines ∧
      lines.map Line.place = [(some ⟨.folder ⟨.null, []⟩, [], [.id "f"]⟩,
          [some ⟨.leaf (.note .null), [], [.id "True"]⟩, some ⟨.leaf (.note .null), [], [.id "True"]⟩]),
        (some ⟨.leaf (.note .null), [], [.id "f"]⟩, []),
        (some ⟨.folder ⟨.null, []⟩, [], [.id "f"]⟩, [some ⟨.leaf (.note .null), [], [.id "True"]⟩])]) ∧
    (foldersOf [folder, child, other, folder]).result = .error (.unsupportedItem (.str "axis") (.str "f")) := by
  intro folder note child other
  refine ⟨(gathered_by_layout [folder, child, note, child, folder, child]).1 [⟨.folder ⟨.null, []⟩, [], [.id "f"]⟩,
    ⟨.leaf (.note .null), [], [.id "True"]⟩, ⟨.leaf (.note .null), [], [.id "f"]⟩,
    ⟨.leaf (.note .null), [], [.id "True"]⟩, ⟨.folder ⟨.null, []⟩, [], [.id "f"]⟩,
    ⟨.leaf (.note .null), [], [.id "True"]⟩] rfl, ?_⟩
  refine (gathered_by_layout [folder, child, other, folder]).2.2.2.2.2.2 [folder, child] other [folder] _ rfl ?_ rfl
  intro b hb
  rcases List.mem_cons.mp hb with rfl | hb
  · exact ⟨_, rfl⟩
  · rw [List.mem_singleton.mp hb]
    exact ⟨_, rfl⟩

end GraphScript
