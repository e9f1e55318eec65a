/-
  GraphScript.Proofs.Folders.Contiguity — whether the children of a folder stand right behind it.

  A folder is meant to take the items behind it for as long as they name it, so that the lines, read
  from the top, are the items in their order. Two things break this. An item that has the id of the
  open folder as its own, and does not name it, stands by itself and leaves the folder open
  (`Strays`). A folder whose id is null takes the items that name no folder
  (`a_null_id_takes_what_names_none`).

  - `contiguous_iff`, `inOrder_iff`: nothing else breaks it.
  - `contiguous_of_distinct_ids`: it holds where no two items have one id and no folder has a null one.
-/
import GraphScript.Proofs.Folders.Gathering

namespace GraphScript.Layout

/-- Item `j` is no folder and gives an id, other than null, that is that of item `k`. -/
def BelongsTo (items : List Json) (j k : Nat) : Prop :=
  ¬ IsFolder items j ∧ valueAt items j "folderId" ≠ .null ∧ Names items j k

/-- Whatever stands from a folder up to one of its children belongs to the folder. -/
def Contiguous (items : List Json) : Prop :=
  ∀ k children, (k, children) ∈ layout items → ∀ i ∈ children, ∀ j, k < j → j ≤ i → BelongsTo items j k

/-- Every line before its children, the items stand as in the list. -/
def InOrder (items : List Json) : Prop := depthFirst (layout items) = List.range items.length

instance (items : List Json) : Decidable (InOrder items) := inferInstanceAs (Decidable (_ = _))

/-- Item `j` has the id of item `k` and does not name it. -/
def Strays (items : List Json) (j k : Nat) : Prop := SharesId items j k ∧ ¬ Names items j k

variable {items : List Json} {i j k : Nat}

/-! ## Contiguity -/

theorem alike_null {v : Json} : Json.alike v .null = true ↔ v = .null := by
  cases v <;> simp [Json.alike, Json.amount?]

theorem names_null (h : Names items j k) :
    valueAt items j "folderId" = .null ↔ valueAt items k "id" = .null := by
  simp only [Names, Json.equals, Bool.and_eq_true, Bool.not_eq_true'] at h
  constructor <;> intro e
  · rw [e] at h
    revert h
    cases valueAt items k "id" <;> simp [Json.alike, Json.amount?]
  · rw [e] at h
    exact alike_null.mp h.2

theorem contiguous_iff_children : Contiguous items ↔
    ∀ k i, i < items.length → IsChild items k i → ∀ j, k < j → j ≤ i → BelongsTo items j k := by
  constructor
  · intro h k i hi hc
    have hk := hc.2.2.1
    exact h k _ (mem_layout.mpr ⟨by omega, hc.2.2.2.1.standsAlone, rfl⟩) i (mem_childrenOf.mpr ⟨hi, hc⟩)
  · intro h k children hm i hi
    rw [(mem_layout.mp hm).2.2] at hi
    exact h k i (mem_childrenOf.mp hi).1 (mem_childrenOf.mp hi).2

/-- The law holds of a child and its folder unless the folder has a null id or an item between them strays. -/
theorem belong_up_to_child (hc : IsChild items k i) :
    (∀ j, k < j → j ≤ i → BelongsTo items j k) ↔
      valueAt items k "id" ≠ .null ∧ ∀ j, k < j → j < i → ¬ Strays items j k := by
  obtain ⟨hf, hn, hk, hkf, hb⟩ := hc
  constructor
  · intro h
    refine ⟨fun e => (h i hk (Nat.le_refl _)).2.1 ((names_null hn).mpr e), fun j h1 h2 hs => ?_⟩
    exact hs.2 (h j h1 (by omega)).2.2
  · intro w j h1 h2
    obtain ⟨hid, hs⟩ := w
    have hj : ¬ IsFolder items j ∧ Names items j k := by
      rcases Nat.lt_or_eq_of_le h2 with h2 | rfl
      · obtain ⟨hjf, hj⟩ := hb j h1 h2
        by_cases hnj : Names items j k
        · exact ⟨hjf, hnj⟩
        · exact absurd ⟨hj.resolve_left hnj, hnj⟩ (hs j h1 h2)
      · exact ⟨hf, hn⟩
    exact ⟨hj.1, fun e => hid ((names_null hj.2).mp e), hj.2⟩

theorem contiguous_iff : Contiguous items ↔ ∀ k i, i < items.length → IsChild items k i →
    valueAt items k "id" ≠ .null ∧ ∀ j, k < j → j < i → ¬ Strays items j k := by
  rw [contiguous_iff_children]
  exact forall₄_congr fun k i _ hc => belong_up_to_child hc

/-! ## Order -/

theorem pairwise_range {R : Nat → Nat → Prop} {n : Nat} :
    (List.range n).Pairwise R ↔ ∀ a b, a < b → b < n → R a b := by
  simp only [List.pairwise_iff_getElem, List.length_range, List.getElem_range]
  exact ⟨fun h a b hab hb => h a b (by omega) hb hab, fun h a b _ hb hab => h a b hab hb⟩

/-- The layout is in order when all of a line and its children come before all of a later line. -/
theorem inOrder_iff_lines : InOrder items ↔ ∀ a b, a < b → b < items.length → StandsAlone items a →
    StandsAlone items b → ∀ x ∈ a :: childrenOf items items.length a, ∀ y ∈ b :: childrenOf items items.length b,
      x < y := by
  have hsorted : InOrder items ↔ (depthFirst (layout items)).Pairwise (· < ·) := by
    constructor
    · intro h
      rw [h]
      exact List.pairwise_lt_range
    · intro h
      exact List.Perm.eq_of_pairwise (fun a b _ _ h1 h2 => by omega) h List.pairwise_lt_range depthFirst_perm
  rw [hsorted, depthFirst, layout, List.flatMap_map, List.pairwise_flatMap, outermost, List.pairwise_filter,
    pairwise_range]
  simp only [decide_eq_true_eq]
  refine and_iff_right fun k _ => List.pairwise_cons.mpr ⟨fun i hi => ?_, pairwise_lt_filter_range ..⟩
  exact (mem_childrenOf.mp hi).2.2.2.1

/-- An item that strays behind an open folder stands by itself. -/
theorem Strays.standsAlone (hs : Strays items j k) (ho : IsOpen items k j) : StandsAlone items j := by
  intro k' _ hc
  rw [hc.2.2.unique ho] at hc
  exact hs.2 hc.2.1

theorem inOrder_iff : InOrder items ↔ ∀ k i, i < items.length → IsChild items k i →
    ∀ j, k < j → j < i → ¬ Strays items j k := by
  rw [inOrder_iff_lines]
  constructor
  · intro h k i hi hc j h1 h2 hs
    have hj := hs.standsAlone (hc.2.2.mono h1 (Nat.le_of_lt h2))
    have := h k j h1 (by omega) hc.2.2.2.1.standsAlone hj i (by simp [mem_childrenOf, hi, hc]) j (by simp)
    omega
  · intro h a b hab hb _ hsb x hx y hy
    have hby : b ≤ y := by
      rcases List.mem_cons.mp hy with rfl | hy
      · exact Nat.le_refl _
      · exact Nat.le_of_lt (mem_childrenOf.mp hy).2.2.2.1
    rcases List.mem_cons.mp hx with rfl | hx
    · omega
    · obtain ⟨hxn, hc⟩ := mem_childrenOf.mp hx
      -- A child behind the line at `b` would leave `b` between a folder and its child, where it can only stray.
      rcases Nat.lt_trichotomy x b with hlt | rfl | hlt
      · omega
      · exact absurd hc (hsb a hab)
      · obtain ⟨hbf, hkeep⟩ := hc.2.2.2.2 b hab hlt
        have hnb : ¬ Names items b a := fun hn => hsb a hab ⟨hbf, hn, hc.2.2.mono hab (Nat.le_of_lt hlt)⟩
        exact absurd ⟨hkeep.resolve_left hnb, hnb⟩ (h a x hxn hc b hab hlt)

theorem contiguous_of_distinct_ids (hid : ∀ k, IsFolder items k → valueAt items k "id" ≠ .null)
    (hshare : ∀ j k, k < j → j < items.length → ¬ SharesId items j k) : Contiguous items ∧ InOrder items :=
  ⟨contiguous_iff.mpr fun k i hi hc => ⟨hid k hc.2.2.2.1, fun j h1 h2 hs => hshare j k h1 (by omega) hs.1⟩,
    inOrder_iff.mpr fun k i hi _ j h1 h2 hs => hshare j k h1 (by omega) hs.1⟩

end GraphScript.Layout

namespace GraphScript

open Faults Layout

theorem depthFirst_map {α β : Type} (f : α → β) (places : List (α × List α)) :
    depthFirst (places.map fun (i, children) => (f i, children.map f)) = (depthFirst places).map f := by
  simp [depthFirst, List.flatMap_map, List.map_flatMap]

theorem map_getElem?_range {α : Type} (l : List α) : (List.range l.length).map (l[·]?) = l.map some := by
  apply List.ext_getElem <;> simp

/-- Of a list of items that can be translated: its folders are contiguous unless a folder with a child has a null id
    or an item strays between a folder and its child, and its items stay in order unless one strays so. In order,
    the lines read from the top are the translated items. -/
theorem contiguity_of_gathered {items : List Json} {translated : List (Item Affix)}
    (h : items.mapM Item.ofJson = .ok translated) :
    ∃ lines, (foldersOf items).result = .ok lines ∧
      lines.map Line.place = (layout items).map (fun (i, children) => (translated[i]?, children.map (translated[·]?))) ∧
      (Contiguous items ↔ ∀ k i, i < items.length → IsChild items k i →
        valueAt items k "id" ≠ .null ∧ ∀ j, k < j → j < i → ¬ Strays items j k) ∧
      (InOrder items ↔ ∀ k i, i < items.length → IsChild items k i → ∀ j, k < j → j < i → ¬ Strays items j k) ∧
      (InOrder items → depthFirst (lines.map Line.place) = translated.map some) := by
  obtain ⟨lines, hr, hl⟩ := foldersOf_layout h
  refine ⟨lines, hr, hl, contiguous_iff, inOrder_iff, fun ho => ?_⟩
  have hlen : items.length = translated.length := (mapM_eq_ok.mp h).length_eq
  rw [hl, depthFirst_map, ho, hlen, map_getElem?_range]

/-- A note that stands behind a folder with the id of the folder, before a child of the folder. -/
theorem contiguity_of_a_shared_id :
    let items : List Json := [.obj [("type", .str "folder"), ("id", .str "f")],
      .obj [("type", .str "text"), ("id", .str "f")],
      .obj [("type", .str "text"), ("id", .str "a"), ("folderId", .str "f")]]
    let translated : List (Item Affix) := [⟨.folder ⟨.null, []⟩, [], [.id "f"]⟩, ⟨.leaf (.note .null), [], [.id "f"]⟩,
      ⟨.leaf (.note .null), [], [.id "a"]⟩]
    items.mapM Item.ofJson = .ok translated ∧
      ∃ lines, (foldersOf items).result = .ok lines ∧
        lines.map Line.place = [(translated[0]?, [translated[2]?]), (translated[1]?, [])] ∧
        (Contiguous items ↔ ∀ k i, i < 3 → IsChild items k i →
          valueAt items k "id" ≠ .null ∧ ∀ j, k < j → j < i → ¬ Strays items j k) ∧
        (InOrder items ↔ ∀ k i, i < 3 → IsChild items k i → ∀ j, k < j → j < i → ¬ Strays items j k) ∧
        (InOrder items → depthFirst (lines.map Line.place) = translated.map some) := by
  intro items translated
  exact ⟨rfl, contiguity_of_gathered rfl⟩

/-- The note does not close the folder: the child is taken from behind the note into the folder. -/
theorem a_shared_id_keeps_the_folder_open :
    let items : List Json := [.obj [("type", .str "folder"), ("id", .str "f")],
      .obj [("type", .str "text"), ("id", .str "f")],
      .obj [("type", .str "text"), ("id", .str "a"), ("folderId", .str "f")]]
    (∃ lines, (foldersOf items).result = .ok lines ∧
      lines.map Line.place = [(some ⟨.folder ⟨.null, []⟩, [], [.id "f"]⟩, [some ⟨.leaf (.note .null), [], [.id "a"]⟩]),
        (some ⟨.leaf (.note .null), [], [.id "f"]⟩, [])]) ∧
      ¬ Contiguous items ∧ ¬ InOrder items := by
  intro items
  refine ⟨⟨_, rfl, rfl⟩, fun h => ?_, by decide⟩
  exact absurd (h 0 [2] (by decide) 2 (by decide) 1 (by decide) (by decide)).2.2 (by decide)

/-- A folder whose id is null has the item behind it as a child, though that one names no folder. -/
theorem a_null_id_takes_what_names_none :
    let items : List Json := [.obj [("type", .str "folder"), ("id", .null)],
      .obj [("type", .str "text"), ("id", .str "a")]]
    layout items = [(0, [1])] ∧ ¬ Contiguous items ∧ InOrder items := by
  intro items
  refine ⟨by decide, fun h => ?_, by decide⟩
  exact absurd (h 0 [1] (by decide) 1 (by decide) 1 (by decide) (by decide)).2.1 (by decide)

end GraphScript
