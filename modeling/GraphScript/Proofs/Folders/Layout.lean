/-
  GraphScript.Proofs.Folders.Layout — where the items of a list stand, read off the list alone.

  A folder stays open up to position `n` while every item behind it is no folder and either names it
  or has its id. An item that is no folder and names the folder open at its place is a child of that
  folder; every other item stands by itself. Ids are compared as values of the document, a missing
  one being null.

  - `IsOpen.unique`: at most one folder is open at a position.
  - `depthFirst_perm`: the layout has every position exactly once.
-/
import GraphScript.Proofs.Items
import Mathlib.Data.List.Nodup
import Mathlib.Data.Nat.Basic
import Mathlib.Order.Interval.Finset.Nat

namespace GraphScript.Layout

def valueAt (items : List Json) (i : Nat) (key : String) : Json := (items.getD i .null).valueOf key

def IsFolder (items : List Json) (i : Nat) : Prop := (valueAt items i "type").is "folder" = true

/-- Item `i` gives the id of item `k` as that of its folder. -/
def Names (items : List Json) (i k : Nat) : Prop :=
  (valueAt items i "folderId").equals (valueAt items k "id") = true

def SharesId (items : List Json) (i k : Nat) : Prop :=
  (valueAt items i "id").equals (valueAt items k "id") = true

/-- Item `j` does not close the folder at `k`. -/
def KeepsOpen (items : List Json) (k j : Nat) : Prop :=
  ¬ IsFolder items j ∧ (Names items j k ∨ SharesId items j k)

/-- The folder at `k` is open when the walk comes to position `n`. -/
def IsOpen (items : List Json) (k n : Nat) : Prop :=
  k < n ∧ IsFolder items k ∧ ∀ j, k < j → j < n → KeepsOpen items k j

/-- Item `i` is a child of the folder at `k`. -/
def IsChild (items : List Json) (k i : Nat) : Prop :=
  ¬ IsFolder items i ∧ Names items i k ∧ IsOpen items k i

instance (items : List Json) (i : Nat) : Decidable (IsFolder items i) := inferInstanceAs (Decidable (_ = _))
instance (items : List Json) (i k : Nat) : Decidable (Names items i k) := inferInstanceAs (Decidable (_ = _))
instance (items : List Json) (i k : Nat) : Decidable (SharesId items i k) := inferInstanceAs (Decidable (_ = _))
instance (items : List Json) (k j : Nat) : Decidable (KeepsOpen items k j) := inferInstanceAs (Decidable (_ ∧ _))
instance (items : List Json) (k n : Nat) : Decidable (IsOpen items k n) :=
  inferInstanceAs (Decidable (_ ∧ _ ∧ ∀ j, k + 1 ≤ j → j < n → _))
instance (items : List Json) (k i : Nat) : Decidable (IsChild items k i) := inferInstanceAs (Decidable (_ ∧ _ ∧ _))

/-- Item `i` is nobody's child. -/
def StandsAlone (items : List Json) (i : Nat) : Prop := ∀ k, k < i → ¬ IsChild items k i

instance (items : List Json) (i : Nat) : Decidable (StandsAlone items i) :=
  inferInstanceAs (Decidable (∀ k, k < i → _))

/-- The children of the folder at `k` among the first `n` items. -/
def childrenOf (items : List Json) (n k : Nat) : List Nat := (List.range n).filter (IsChild items k ·)

/-- The first `n` items that stand by themselves. -/
def outermost (items : List Json) (n : Nat) : List Nat := (List.range n).filter (StandsAlone items ·)

end GraphScript.Layout

namespace GraphScript

/-- The positions that stand by themselves, each with those of its children. -/
def layout (items : List Json) : List (Nat × List Nat) :=
  (Layout.outermost items items.length).map fun i => (i, Layout.childrenOf items items.length i)

/-- Every line before its children. -/
def depthFirst {α : Type} (places : List (α × List α)) : List α := places.flatMap fun (i, children) => i :: children

end GraphScript

namespace GraphScript.Layout

variable {items : List Json} {i k k' n : Nat}

/-! ## One folder at a time -/

theorem IsOpen.unique (h : IsOpen items k n) (h' : IsOpen items k' n) : k = k' := by
  obtain ⟨hk, hf, hb⟩ := h
  obtain ⟨hk', hf', hb'⟩ := h'
  rcases Nat.lt_trichotomy k k' with hlt | rfl | hlt
  · exact absurd hf' (hb k' hlt hk').1
  · rfl
  · exact absurd hf (hb' k hlt hk).1

theorem isOpen_succ (hk : k < n) : IsOpen items k (n + 1) ↔ IsOpen items k n ∧ KeepsOpen items k n := by
  constructor
  · intro w
    obtain ⟨-, hf, hb⟩ := w
    exact ⟨⟨hk, hf, fun j h1 h2 => hb j h1 (by omega)⟩, hb n hk (by omega)⟩
  · intro w
    obtain ⟨⟨-, hf, hb⟩, hn⟩ := w
    refine ⟨by omega, hf, fun j h1 h2 => ?_⟩
    rcases Nat.lt_succ_iff_lt_or_eq.mp h2 with h2 | rfl
    · exact hb j h1 h2
    · exact hn

theorem isOpen_self : IsOpen items n (n + 1) ↔ IsFolder items n :=
  ⟨fun h => h.2.1, fun h => ⟨by omega, h, fun _ _ _ => by omega⟩⟩

theorem IsFolder.standsAlone (h : IsFolder items i) : StandsAlone items i := fun _ _ hc => hc.1 h

theorem IsOpen.mono {m : Nat} (h : IsOpen items k n) (hkm : k < m) (hmn : m ≤ n) : IsOpen items k m :=
  ⟨hkm, h.2.1, fun j h1 h2 => h.2.2 j h1 (by omega)⟩

/-! ## Places -/

theorem mem_childrenOf : i ∈ childrenOf items n k ↔ i < n ∧ IsChild items k i := by simp [childrenOf]

theorem mem_outermost : i ∈ outermost items n ↔ i < n ∧ StandsAlone items i := by simp [outermost]

theorem mem_layout {children : List Nat} : (k, children) ∈ layout items ↔
    k < items.length ∧ StandsAlone items k ∧ children = childrenOf items items.length k := by
  simp only [layout, List.mem_map, Prod.mk.injEq, mem_outermost]
  constructor
  · intro w
    obtain ⟨k, ⟨hk, hs⟩, rfl, rfl⟩ := w
    exact ⟨hk, hs, rfl⟩
  · intro w
    obtain ⟨hk, hs, rfl⟩ := w
    exact ⟨k, ⟨hk, hs⟩, rfl, rfl⟩

theorem layout_fst : (layout items).map (·.1) = outermost items items.length := by
  rw [layout, List.map_map]
  exact List.map_id _

theorem pairwise_lt_filter_range (p : Nat → Bool) (n : Nat) : ((List.range n).filter p).Pairwise (· < ·) :=
  List.pairwise_lt_range.filter _

theorem depthFirst_nodup : (depthFirst (layout items)).Nodup := by
  simp only [depthFirst, layout, List.flatMap_map, List.nodup_flatMap]
  refine ⟨fun i hi => List.nodup_cons.mpr ⟨fun h => ?_, List.nodup_range.filter _⟩, ?_⟩
  · have := (mem_childrenOf.mp h).2.2.2.1
    omega
  · refine (List.nodup_range.filter _).pairwise_of_forall_ne fun a ha b hb hab => ?_
    intro x hx hy
    have hoa := (mem_outermost.mp ha).2
    have hob := (mem_outermost.mp hb).2
    rcases List.mem_cons.mp hx with rfl | hx <;> rcases List.mem_cons.mp hy with rfl | hy
    · exact hab rfl
    · exact hoa _ (mem_childrenOf.mp hy).2.2.2.1 (mem_childrenOf.mp hy).2
    · exact hob _ (mem_childrenOf.mp hx).2.2.2.1 (mem_childrenOf.mp hx).2
    · exact hab ((mem_childrenOf.mp hx).2.2.2.unique (mem_childrenOf.mp hy).2.2.2)

/-- Every position stands in exactly one place. -/
theorem depthFirst_perm : (depthFirst (layout items)).Perm (List.range items.length) := by
  refine (List.perm_ext_iff_of_nodup depthFirst_nodup List.nodup_range).mpr fun i => ?_
  simp only [depthFirst, layout, List.flatMap_map, List.mem_flatMap, List.mem_cons, mem_outermost, mem_childrenOf,
    List.mem_range]
  constructor
  · rintro ⟨k, ⟨hk, -⟩, rfl | ⟨hi, -⟩⟩ <;> assumption
  · intro hi
    by_cases h : StandsAlone items i
    · exact ⟨i, ⟨hi, h⟩, .inl rfl⟩
    · simp only [StandsAlone, not_forall, not_not] at h
      obtain ⟨k, hk, hc⟩ := h
      exact ⟨k, ⟨by omega, hc.2.2.2.1.standsAlone⟩, .inr ⟨hi, hc⟩⟩

end GraphScript.Layout
