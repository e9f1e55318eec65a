/-
  GraphScript.Proofs.Folders.Conservation — no item is lost on the way into its folder, and none is
  there twice.

  Every line is one translated item or, if it is a folder, one and its children. All of these
  together are the translated items of the list, in another order.

  - `foldersOf_perm`, `foldersOf_length`
-/
import GraphScript.Proofs.Folders.Contiguity
import Mathlib.Data.List.Perm.Basic

namespace GraphScript

open Faults Layout

/-- The translated items of a line: its own and those of its children. -/
def Line.parts : Line → List (Item Affix)
  | .setting _ => []
  | .item i => i.apart.1 :: i.apart.2

/-- The items that stand in a folder at this line. -/
def Line.children : Line → List (Item Leaf)
  | .item ⟨.folder f, _, _⟩ => f.children
  | _ => []

theorem Line.parts_length {l : Line} {i : Item Affix} (h : l = .item i) : l.parts.length = 1 + l.children.length := by
  obtain ⟨affix, smallFlags, options⟩ := i
  subst h
  cases affix <;> simp [parts, children, Item.apart, Nat.add_comm]

theorem map_some_parts {lines : List Line} (h : ∀ l ∈ lines, ∃ i, l = .item i) :
    (lines.flatMap Line.parts).map some = depthFirst (lines.map Line.place) := by
  induction lines with
  | nil => rfl
  | cons l ls ih =>
    obtain ⟨i, rfl⟩ := h l (List.mem_cons_self ..)
    have hls := ih fun l hl => h l (List.mem_cons_of_mem _ hl)
    simp only [depthFirst, List.map_cons, List.flatMap_cons, List.map_append] at hls ⊢
    rw [hls]
    rfl

variable {items : List Json} {translated : List (Item Affix)} {lines : List Line}

theorem foldersOf_perm (ht : items.mapM Item.ofJson = .ok translated) (hl : (foldersOf items).result = .ok lines) :
    (lines.flatMap Line.parts).Perm translated := by
  obtain ⟨lines', hr, hp⟩ := foldersOf_layout ht
  obtain rfl : lines' = lines := Except.ok.inj (hr.symm.trans hl)
  have hitems : ∀ l ∈ lines', ∃ i, l = .item i := fun l hl' => (foldersOf_items hl l hl').imp fun i hi => hi.1
  have hlen : items.length = translated.length := (mapM_eq_ok.mp ht).length_eq
  refine (List.map_perm_map_iff (Option.some_injective _)).mp ?_
  calc (lines'.flatMap Line.parts).map some
      = (depthFirst (layout items)).map (translated[·]?) := by rw [map_some_parts hitems, hp, depthFirst_map]
    _ |>.Perm ((List.range items.length).map (translated[·]?)) := depthFirst_perm.map _
    _ = translated.map some := by rw [hlen, map_getElem?_range]

theorem parts_length_of_items {ls : List Line} (h : ∀ l ∈ ls, ∃ i, l = .item i) :
    (ls.flatMap Line.parts).length = ls.length + (ls.flatMap Line.children).length := by
  induction ls with
  | nil => rfl
  | cons l rest ih =>
    obtain ⟨i, hi⟩ := h l (List.mem_cons_self ..)
    have hrest := ih fun l hl => h l (List.mem_cons_of_mem _ hl)
    simp only [List.flatMap_cons, List.length_append, Line.parts_length hi, List.length_cons]
    omega

/-- Every item of the list is a line or a child. -/
theorem foldersOf_length (hl : (foldersOf items).result = .ok lines) :
    lines.length + (lines.flatMap Line.children).length = items.length := by
  obtain ⟨translated, ht⟩ := Walk.run_translates hl
  have hitems : ∀ l ∈ lines, ∃ i, l = .item i := fun l hl' => (foldersOf_items hl l hl').imp fun i hi => hi.1
  calc lines.length + (lines.flatMap Line.children).length
      = (lines.flatMap Line.parts).length := (parts_length_of_items hitems).symm
    _ = translated.length := (foldersOf_perm ht hl).length_eq
    _ = items.length := (mapM_eq_ok.mp ht).length_eq.symm

end GraphScript
