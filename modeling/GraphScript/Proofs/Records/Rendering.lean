/-
  GraphScript.Proofs.Records.Rendering — a program as a tree is always written through.

  The script of a tree stops at a record that is no line, no affix or no option group, and at a
  setting without a part. The tree of a program has no such record: it fails at most where the
  program itself does, for a value that does not fit.

  - `Program.tree_misfit`
-/
import GraphScript.Program.OfTree
import GraphScript.Proofs.Script.Writable

namespace GraphScript

open Faults Json

/-! ## Parts that are always taken -/

namespace Tree

@[simp] theorem members_treesOf {α : Type} (f : α → Tree) (xs : List α) : (treesOf f xs).members = .ok (xs.map f) := rfl

@[simp] theorem latex_tree (l : Latex) : Tree.latex l.tree = .ok l := rfl

theorem present_treeOf {α : Type} {f : α → Tree} {take : Tree → Except Fault α} (hf : ∀ a, (f a).isNull = false)
    (ht : ∀ a, take (f a) = .ok a) (o : Option α) : present take (treeOf f o) = .ok o := by
  cases o with
  | none => rfl
  | some a => simp [present, treeOf, hf, ht, Except.map]

@[simp] theorem present_latex (o : Option Latex) : present Tree.latex (treeOf Latex.tree o) = .ok o :=
  present_treeOf (fun _ => rfl) latex_tree o

@[simp] theorem interval_tree (i : Interval) : Tree.interval i.tree = .ok i := by
  simp [Tree.interval, Interval.tree]

@[simp] theorem present_interval (o : Option Interval) : present Tree.interval (treeOf Interval.tree o) = .ok o :=
  present_treeOf (fun _ => rfl) interval_tree o

@[simp] theorem text_str (s : String) : (Tree.str s).text = .ok s := rfl

@[simp] theorem present_text (o : Option String) : present text (treeOf Tree.str o) = .ok o :=
  present_treeOf (f := Tree.str) (fun _ => rfl) text_str o

@[simp] theorem rule_tree (r : ClickableRule) : Tree.rule r.tree = .ok r := by
  simp [Tree.rule, ClickableRule.tree]

@[simp] theorem rules_tree (rs : List ClickableRule) : Tree.rules (treesOf ClickableRule.tree rs) = .ok rs := by
  simp [Tree.rules, mapM_ok (f := rule ∘ ClickableRule.tree) (g := id) rule_tree]

end Tree

/-! ## Parts that may not fit -/

theorem Tree.text_misfit (j : Json) : FailsWith Fault.IsMisfit (Tree.plain j).text := by
  cases j <;> simp [text, Fault.IsMisfit]

theorem Tree.number_misfit (j : Json) : FailsWith Fault.IsMisfit (Tree.plain j).number := by
  simp [number, numberScript_misfit]

theorem Tree.present_misfit {α : Type} {take : Tree → Except Fault α} {t : Tree} (h : FailsWith Fault.IsMisfit (take t)) :
    FailsWith Fault.IsMisfit (t.present take) := by
  unfold present
  split
  · exact failsWith_ok _
  · exact failsWith_map.mpr h

theorem Tree.present_text_misfit (j : Json) : FailsWith Fault.IsMisfit ((Tree.plain j).present text) :=
  present_misfit (text_misfit j)

theorem Flag.tree_misfit (f : Flag) : FailsWith Fault.IsMisfit (Tree.flag f.tree) := by
  cases f with
  | word w => exact failsWith_ok _
  | given value => cases value <;> simp [tree, Tree.flag, Fault.IsMisfit]

theorem flags_misfit (fs : List Flag) : FailsWith Fault.IsMisfit (fs.mapM (Tree.flag ∘ Flag.tree)) :=
  .mapM fun f _ => f.tree_misfit

theorem RegressionParameter.tree_misfit (p : RegressionParameter) : FailsWith Fault.IsMisfit (Tree.parameter p.tree) := by
  simp [Tree.parameter, tree, failsWith_bind, Tree.number_misfit]

theorem parameters_misfit (ps : List RegressionParameter) :
    FailsWith Fault.IsMisfit (Tree.parameters (treesOf RegressionParameter.tree ps)) := by
  unfold Tree.parameters
  split
  · rw [Tree.members_treesOf, ok_bind, List.mapM_map]
    exact .mapM fun p _ => p.tree_misfit
  · exact failsWith_ok _

theorem OptionGroup.tree_misfit (g : OptionGroup) : FailsWith Fault.IsMisfit (Tree.optionGroup g.tree) := by
  cases g <;> simp [tree, kind, Tree.optionGroup, failsWith_bind, flags_misfit, parameters_misfit, Tree.text_misfit,
    Tree.textOrNull, Tree.present_text_misfit]

theorem optionGroups_misfit (gs : List OptionGroup) :
    FailsWith Fault.IsMisfit (Tree.optionGroups (treesOf OptionGroup.tree gs)) := by
  rw [Tree.optionGroups, Tree.members_treesOf, ok_bind, List.mapM_map]
  exact .mapM fun g _ => g.tree_misfit

@[simp] theorem smallFlags_tree (fs : List SmallFlag) : Tree.smallFlags (treesOf SmallFlag.tree fs) = .ok fs := by
  rw [Tree.smallFlags, Tree.members_treesOf, ok_bind, List.mapM_map]
  exact (mapM_ok (g := id) (fun _ => rfl) fs).trans (by rw [List.map_id])

theorem Column.tree_misfit (c : Column) : FailsWith Fault.IsMisfit (Tree.column c.tree) := by
  have hcells : Tree.latexList (treesOf Latex.tree c.values) = .ok c.values := by
    simp [Tree.latexList, mapM_ok (f := Tree.latex ∘ Latex.tree) (g := id) Tree.latex_tree]
  simp [Tree.column, tree, failsWith_bind, optionGroups_misfit, hcells]

theorem Leaf.tree_misfit (l : Leaf) : FailsWith Fault.IsMisfit (Tree.leaf l.tree) := by
  cases l with
  | table columns =>
    have hcolumns : FailsWith Fault.IsMisfit (columns.mapM (Tree.column ∘ Column.tree)) :=
      .mapM fun c _ => c.tree_misfit
    simp only [Tree.leaf, tree, kind]
    split <;> simp [failsWith_bind, hcolumns]
  | image url => simp [Tree.leaf, tree, kind, failsWith_bind, Tree.text_misfit]
  | note text => simp [Tree.leaf, tree, kind, failsWith_bind, Tree.textOrNull, Tree.present_text_misfit]
  | simulation rules | expression latex => simp [Tree.leaf, tree, kind]

theorem Item.tree_misfit {α : Type} {affix : α → Tree} {take : Tree → Except Fault α}
    (ha : ∀ a, FailsWith Fault.IsMisfit (take (affix a))) (i : Item α) :
    FailsWith Fault.IsMisfit (Tree.itemWith take (i.tree affix)) := by
  simp [Tree.itemWith, tree, failsWith_bind, ha, optionGroups_misfit]

theorem Affix.tree_misfit (a : Affix) : FailsWith Fault.IsMisfit (Tree.affix a.tree) := by
  cases a with
  | leaf l =>
    have hleaf : Tree.affix l.tree = l.tree.leaf.map .leaf := by cases l <;> rfl
    rw [tree, hleaf, failsWith_map]
    exact l.tree_misfit
  | folder f =>
    have hchildren : FailsWith Fault.IsMisfit (f.children.mapM (Tree.itemWith Tree.leaf ∘ Item.tree Leaf.tree)) :=
      .mapM fun i _ => i.tree_misfit Leaf.tree_misfit
    simp only [Tree.affix, tree, Folder.tree]
    split <;> simp [failsWith_bind, Tree.textOrNull, Tree.present_text_misfit, hchildren]

/-! ## Settings -/

namespace Tree

theorem textOrNull_eq_ok {j v : Json} (h : (Tree.plain j).textOrNull = .ok v) : v = j := by
  cases j <;> cases h <;> rfl

theorem numberOrNull_eq_ok {j v : Json} (h : (Tree.plain j).numberOrNull = .ok v) : v = j := by
  cases j <;> cases h <;> rfl

theorem numberOrNull_misfit (j : Json) : FailsWith Fault.IsMisfit (Tree.plain j).numberOrNull :=
  failsWith_map.mpr (present_misfit (number_misfit j))

theorem textOrNull_misfit (j : Json) : FailsWith Fault.IsMisfit (Tree.plain j).textOrNull :=
  failsWith_map.mpr (present_text_misfit j)

@[simp] theorem present_arrow (o : Option ArrowMode) : present arrow (treeOf ArrowMode.tree o) = .ok o :=
  present_treeOf (f := ArrowMode.tree) (fun _ => rfl) (fun _ => rfl) o

@[simp] theorem present_visible (o : Option Visibility) : present visible (treeOf Visibility.tree o) = .ok o :=
  present_treeOf (f := Visibility.tree) (fun _ => rfl) (fun _ => rfl) o

theorem present_interval_misfit (o : Option NumberInterval) :
    FailsWith Fault.IsMisfit (present numberInterval (treeOf NumberInterval.tree o)) := by
  cases o with
  | none => exact failsWith_ok _
  | some i => exact present_misfit (by
    simp [numberInterval, treeOf, NumberInterval.tree, failsWith_bind, number_misfit])

theorem present_interval_eq_ok {o taken : Option NumberInterval}
    (h : present numberInterval (treeOf NumberInterval.tree o) = .ok taken) (ho : o ≠ none) : taken ≠ none := by
  cases o with
  | none => exact absurd rfl ho
  | some i =>
    obtain ⟨_, -, rfl⟩ := map_eq_ok.mp h
    exact nofun

end Tree

theorem Setting.tree_misfit (s : Setting) : FailsWith Fault.IsMisfit (Tree.line s.tree) := by
  cases s <;> simp [tree, kind, Tree.line, failsWith_bind, Tree.text_misfit, flags_misfit, Tree.present_interval_misfit,
    Tree.numberOrNull_misfit, Tree.textOrNull_misfit]

/-- What is taken of a setting that has a part to show has one too. -/
theorem Setting.tree_populated {s : Setting} (hp : s.Populated) :
    Ensures (fun l => ∃ s', l = .setting s' ∧ s'.Populated) (Tree.line s.tree) := by
  intro l h
  cases s with
  | seed value =>
    simp only [tree, kind, Tree.line, bind_eq_ok, pure_eq, Except.ok.injEq] at h
    obtain ⟨_, -, rfl⟩ := h
    exact ⟨_, rfl, trivial⟩
  | flags words =>
    simp only [tree, kind, Tree.line, bind_eq_ok, pure_eq, Except.ok.injEq, Tree.members_treesOf] at h
    obtain ⟨_, rfl, taken, ht, rfl⟩ := h
    have hlen := (mapM_eq_ok.mp ht).length_eq
    refine ⟨_, rfl, fun hn => hp (List.eq_nil_of_length_eq_zero ?_)⟩
    rwa [hn, List.length_map] at hlen
  | viewport x y =>
    simp only [tree, kind, Tree.line, bind_eq_ok, pure_eq, Except.ok.injEq] at h
    obtain ⟨_, hx, _, hy, rfl⟩ := h
    exact ⟨_, rfl, hp.imp (Tree.present_interval_eq_ok hx) (Tree.present_interval_eq_ok hy)⟩
  | minorSubdivisions x y | axisSteps x y =>
    simp only [tree, kind, Tree.line, bind_eq_ok, pure_eq, Except.ok.injEq] at h
    obtain ⟨_, hx, _, hy, rfl⟩ := h
    rw [Tree.numberOrNull_eq_ok hx, Tree.numberOrNull_eq_ok hy]
    exact ⟨_, rfl, hp⟩
  | axisLabels x y =>
    simp only [tree, kind, Tree.line, bind_eq_ok, pure_eq, Except.ok.injEq] at h
    obtain ⟨_, hx, _, hy, rfl⟩ := h
    rw [Tree.textOrNull_eq_ok hx, Tree.textOrNull_eq_ok hy]
    exact ⟨_, rfl, hp⟩
  | axisArrows x y | axes x y | axisNumbers x y polar =>
    simp [tree, kind, Tree.line] at h
    exact ⟨_, h.symm, hp⟩

/-! ## Lines -/

theorem Line.item_tree (i : Item Affix) :
    Tree.line (Line.item i).tree = (Tree.item (i.tree Affix.tree)).map Line.item := by
  show (Tree.item (i.tree Affix.tree) >>= fun taken => pure (Line.item taken)) = _
  cases Tree.item (i.tree Affix.tree) <;> rfl

/-- Taking a line and writing what was taken fails only for a value that does not fit. -/
theorem Line.tree_misfit {l : Line} (hp : ∀ s, l = .setting s → s.Populated) :
    FailsWith Fault.IsMisfit (Tree.line l.tree >>= Line.script) := by
  cases l with
  | setting s =>
    refine failsWith_bind.mpr ⟨s.tree_misfit, fun taken ht => ?_⟩
    obtain ⟨s', rfl, hs'⟩ := (Setting.tree_populated (hp s rfl)).of_ok ht
    exact Setting.script_misfit hs'
  | item i =>
    have hi : FailsWith Fault.IsMisfit (Tree.item (i.tree Affix.tree)) := i.tree_misfit Affix.tree_misfit
    refine failsWith_bind.mpr ⟨?_, fun taken ht => ?_⟩
    · rwa [item_tree, failsWith_map]
    · rw [item_tree] at ht
      obtain ⟨i', -, rfl⟩ := map_eq_ok.mp ht
      exact i'.scriptWith_misfit (Affix.script_misfit "") ""

theorem Program.tree_misfit {p : Program} (h : p.Populated) :
    FailsWith Fault.IsMisfit (Tree.script (p.lines.map Line.tree)) := by
  rw [Tree.script, failsWith_map, List.mapM_map]
  refine .mapM fun l hl => Line.tree_misfit ?_
  rintro s rfl
  exact h s (mem_settings.mpr hl)

end GraphScript
