/-
  GraphScript.Proofs.State.Order — option groups and small flags stand in one order, none of them twice.

  An item begins with its id. Behind it come the groups that items of every kind share, then those of
  its own kind (`ItemKind.optionOrder`). Each reader gives one group of its kind or none, so what is
  there is a sublist of that order (`kinds_sublist`), and no kind stands in the order twice.

  - `options_in_order`
-/
import GraphScript.Proofs.State.Sources

namespace GraphScript

open Faults Json.Fields

/-- The kinds of the option groups of an item, in their order. -/
def ItemKind.optionOrder (kind : ItemKind) : List Kind := .idOption :: stylingKinds ++ kind.ownKinds

/-- The small flags of an item, in their order. -/
def ItemKind.smallFlagOrder (kind : ItemKind) : List SmallFlag :=
  [.secret, .hidden] ++
    match kind with
    | .folder => [.collapsed]
    | .simulation => [.playing]
    | .image => [.foreground, .draggable]
    | .table | .expression | .text => []

theorem ItemKind.orders_nodup (kind : ItemKind) : kind.optionOrder.Nodup ∧ kind.smallFlagOrder.Nodup := by
  cases kind <;> decide

/-- Of the groups that may be there, one for each kind, those that are there keep the order of the kinds. -/
theorem kinds_sublist {fs : Json.Fields} {kinds : List Kind} {os : List (Option OptionGroup)}
    (h : List.Forall₂ fs.MayGive kinds os) : List.Sublist ((os.filterMap id).map OptionGroup.kind) kinds := by
  induction h with
  | nil => exact List.Sublist.refl _
  | @cons k o kinds os ho _ ih =>
    cases o with
    | none => exact ih.cons k
    | some g =>
      show List.Sublist (g.kind :: _) _
      rw [(mayGive_some.mp ho).kind_eq]
      exact ih.cons_cons k

theorem styling_ordered {fs : Json.Fields} {gs : List OptionGroup} (h : fs.styling = .ok gs) :
    List.Sublist (gs.map OptionGroup.kind) stylingKinds := by
  obtain ⟨os, rfl, hos⟩ := styling_given h
  exact kinds_sublist hos

theorem ItemKind.groups_ordered {fs : Json.Fields} {kind : ItemKind} {gs : List OptionGroup}
    (h : kind.groups fs = .ok gs) : List.Sublist (gs.map OptionGroup.kind) kind.ownKinds := by
  obtain ⟨os, rfl, hos⟩ := ItemKind.groups_given h
  exact kinds_sublist hos

theorem Column.ofJson_ordered {j : Json} {c : Column} (h : Column.ofJson j = .ok c) :
    List.Sublist (c.options.map OptionGroup.kind) stylingKinds := by
  simp only [Column.ofJson, bind_eq_ok, pure_eq, Except.ok.injEq] at h
  obtain ⟨fs, -, _, -, _, -, _, -, styling, hs, rfl⟩ := h
  exact styling_ordered hs

/-! ## Items -/

theorem smallFlagIf_sublist (condition : Bool) (f : SmallFlag) : List.Sublist (smallFlagIf condition f) [f] := by
  cases condition with
  | false => exact List.nil_sublist _
  | true => exact List.Sublist.refl _

theorem ItemKind.smallFlags_ordered (fs : Json.Fields) (kind : ItemKind) : List.Sublist
    (smallFlagIf (fs.truthy "secret") .secret ++ smallFlagIf (fs.truthy "hidden") .hidden ++ kind.smallFlags fs)
    kind.smallFlagOrder := by
  refine ((smallFlagIf_sublist _ _).append (smallFlagIf_sublist _ _)).append ?_
  cases kind with
  | folder | simulation => exact smallFlagIf_sublist _ _
  | image => exact (smallFlagIf_sublist _ _).append (smallFlagIf_sublist _ _)
  | table | expression | text => exact List.Sublist.refl _

/-- No order holds a kind or a flag twice. An item begins with its id as a text, its groups and its small flags keep
    the order of its kind, and the groups of a column, alone or in a table, keep the order that all items share. -/
theorem options_in_order :
    (∀ kind : ItemKind, kind.optionOrder.Nodup ∧ kind.smallFlagOrder.Nodup) ∧
    (∀ (j : Json) (t : Item Affix), Item.ofJson j = .ok t → ∃ kind id groups,
      ItemKind.ofJson? (j.valueOf "type") = some kind ∧ j.need "id" = .ok id ∧ t.options = .id id.text :: groups ∧
      List.Sublist (t.options.map OptionGroup.kind) kind.optionOrder ∧ List.Sublist t.smallFlags kind.smallFlagOrder ∧
      ∀ columns, t.affix = .leaf (.table columns) →
        ∀ c ∈ columns, List.Sublist (c.options.map OptionGroup.kind) stylingKinds) ∧
    (∀ (j : Json) (c : Column), Column.ofJson j = .ok c →
      List.Sublist (c.options.map OptionGroup.kind) stylingKinds) := by
  refine ⟨ItemKind.orders_nodup, ?_, fun j c => Column.ofJson_ordered⟩
  intro j t h
  obtain ⟨id, groups, hid, hoptions⟩ := Item.ofJson_id h
  obtain ⟨fs, id', styling, kind, affix, own, rfl, hs, hk, ha, hg, rfl⟩ := Item.ofJson_eq_ok h
  refine ⟨kind, id, groups, hk, hid, hoptions, ?_, kind.smallFlags_ordered fs, ?_⟩
  · show List.Sublist (.idOption :: (styling ++ own).map OptionGroup.kind)
      (.idOption :: (stylingKinds ++ kind.ownKinds))
    rw [List.map_append]
    exact ((styling_ordered hs).append (ItemKind.groups_ordered hg)).cons_cons _
  · intro columns hcolumns c hc
    subst hcolumns
    obtain ⟨_, hj⟩ := ItemKind.affix_columns ha c hc
    exact Column.ofJson_ordered hj

/-- A table whose fields come in another order, with a column that has two groups. -/
theorem options_of_a_table_in_order :
    let cells := Json.obj [("color", .str "#c74440"), ("values", .arr [.int 1]), ("points", .bool false)]
    let j := Json.obj [("columns", .arr [cells]), ("dragMode", .str "XY"), ("fill", .bool true), ("secret", .bool true),
      ("id", .int 7), ("type", .str "table")]
    let c : Column := ⟨[⟨"1"⟩], none, [], [.points [.word .hidden] none none, .color (.str "#c74440") none]⟩
    let t : Item Affix := ⟨.leaf (.table [c]), [.secret], [.id "7", .fill [.word .shown] none, .drag [.word .dragXY]]⟩
    (Item.ofJson j = .ok t ∧ List.Sublist (t.options.map OptionGroup.kind) ItemKind.table.optionOrder ∧
      ∀ c' ∈ [c], List.Sublist (c'.options.map OptionGroup.kind) stylingKinds) ∧
    (Column.ofJson cells = .ok c ∧ List.Sublist (c.options.map OptionGroup.kind) stylingKinds) := by
  intro cells j c t
  have hj : Item.ofJson j = .ok t := by decide +kernel
  have hc : Column.ofJson cells = .ok c := by decide +kernel
  obtain ⟨kind, id, groups, hk, -, -, hgroups, -, hcolumns⟩ := options_in_order.2.1 j t hj
  obtain rfl : ItemKind.table = kind := Option.some.inj hk
  exact ⟨⟨hj, hgroups, hcolumns [c] rfl⟩, hc, options_in_order.2.2 cells c hc⟩

end GraphScript
