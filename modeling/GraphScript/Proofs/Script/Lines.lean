/-
  GraphScript.Proofs.Script.Lines — a program is known from its script.

  Lines end at a line break, but a literal or a block may hold line breaks of its own. A line is a
  setting, which begins with its keyword, or an item, which begins with none of these. The items of
  a folder are the lines of a block.

  - `Program.erased_eq_of_script_eq`: programs of one script differ in no more than headers of
    columns, titles that say nothing, and the form of numbers.
-/
import GraphScript.Proofs.Script.Items
import GraphScript.Proofs.Script.Settings

namespace GraphScript

open Faults

/-! ## Folders -/

theorem leafTexts {indentation : String} (hi : Blanks indentation) :
    AffixTexts Leaf.Regular Leaf.kind (Leaf.script indentation) Leaf.erased where
  separable := leaf_separable hi
  kind_mem := Leaf.kind_mem
  opening _ _ := Leaf.script_opening

theorem scriptWith_indented {α : Type} {kind : α → Kind} {script : α → Except Fault String} {indentation t : String}
    {i : Item α} (h : i.scriptWith kind script indentation = .ok t) : ∃ r, t.toList = indentation.toList ++ r := by
  simp only [Item.scriptWith, bind_eq_ok, pure_eq, Except.ok.injEq] at h
  obtain ⟨affix, -, groups, -, rfl⟩ := h
  exact ⟨_, String.toList_append⟩

def Item.erasedLeaf (i : Item Leaf) : Item Leaf := i.erasedBy Leaf.erased

/-- A folder whose title is nothing where it says nothing, and what is left of its children. -/
def Folder.erased (f : Folder) : Folder := ⟨f.title.orNull, f.children.map Item.erasedLeaf⟩

def Folder.Regular (f : Folder) : Prop := ∀ i ∈ f.children, i.Regular Leaf.Regular

theorem children_separable {indentation : String} (hi : Blanks indentation) : Separable (fun _ => True)
    (fun is t => (∀ i ∈ is, Item.Regular Leaf.Regular i) ∧
      ∃ texts, is.mapM (leafItemScript (indented indentation)) = .ok texts ∧ block "" texts = t)
    (List.map Item.erasedLeaf) := by
  have hdeep : ∀ (i : Item Leaf) t, (i.Regular Leaf.Regular ∧ leafItemScript (indented indentation) i = .ok t) →
      ∃ r, t.toList = "".toList ++ ' ' :: r := by
    intro i t w
    obtain ⟨-, h⟩ := w
    obtain ⟨r, hr⟩ := scriptWith_indented h
    obtain ⟨r', hr'⟩ := hi.indented_cons
    exact ⟨r' ++ r, by rw [hr, hr']; rfl⟩
  have hb := (item_separable hi.indented (leafTexts hi.indented)).block hdeep
  intro is js _ _ r s wa wb _ _ h
  obtain ⟨hp, ts, hts, rfl⟩ := wa
  obtain ⟨hq, us, hus, rfl⟩ := wb
  exact hb ⟨_, forall₂_of_mapM hp hts, rfl⟩ ⟨_, forall₂_of_mapM hq hus, rfl⟩ trivial trivial h

theorem title_separable : Separable (Opens (· == '\x7b'))
    (fun title t => ∃ o, Json.present Json.stringScript title = .ok o ∧ (o.map (· ++ " ")).getD "" = t) id := by
  refine Json.optional_separable ?_ fun s r h => ?_
  · intro a b _ _ r s wa wb _ _ h
    obtain ⟨x, hx, rfl⟩ := wa
    obtain ⟨y, hy, rfl⟩ := wb
    simp only [String.toList_append, List.append_assoc] at h
    obtain ⟨hab, h1⟩ := Json.string_separable hx hy (by simp) (by simp) h
    exact ⟨hab, List.append_cancel_left h1⟩
  · rw [String.toList_append, toList_stringScript] at h
    simp at h

theorem Folder.script_eq_ok {indentation t : String} {f : Folder} (h : f.script indentation = .ok t) :
    ∃ o texts, f.title.orNull.present Json.stringScript = .ok o ∧
      f.children.mapM (leafItemScript (indented indentation)) = .ok texts ∧
      "folder " ++ (o.map (· ++ " ")).getD "" ++ block "" texts = t := by
  simp only [Folder.script, bind_eq_ok, pure_eq, Except.ok.injEq] at h
  obtain ⟨o, ho, texts, htexts, rfl⟩ := h
  exact ⟨o, texts, ho, htexts, by cases o <;> rfl⟩

theorem folder_separable {indentation : String} (hi : Blanks indentation) :
    Separable (fun _ => True) (fun f t => Folder.Regular f ∧ Folder.script indentation f = .ok t) Folder.erased := by
  intro f g t u r s wa wb _ _ h
  obtain ⟨hf, ht⟩ := wa
  obtain ⟨hg, hu⟩ := wb
  obtain ⟨o, ts, ho, hts, rfl⟩ := Folder.script_eq_ok ht
  obtain ⟨o', us, ho', hus, rfl⟩ := Folder.script_eq_ok hu
  simp only [String.toList_append, List.append_assoc, List.append_cancel_left_eq] at h
  have hblock : ∀ ts r, Opens (· == '\x7b') ((block "" ts).toList ++ r) := by
    intro ts r
    obtain ⟨r', hr'⟩ := toList_block "" ts
    simp [hr']
  obtain ⟨htitle, h1⟩ := title_separable.eq ⟨o, ho, rfl⟩ ⟨o', ho', rfl⟩ (hblock ts r) (hblock us s) h
  obtain ⟨hc, hrs⟩ := children_separable hi ⟨hf, ts, hts, rfl⟩ ⟨hg, us, hus, rfl⟩ trivial trivial h1
  exact ⟨congrArg₂ Folder.mk htitle hc, hrs⟩

/-! ## Affixes -/

def Affix.erased : Affix → Affix
  | .leaf l => .leaf l.erased
  | .folder f => .folder f.erased

def Affix.Regular : Affix → Prop
  | .leaf l => l.Regular
  | .folder f => f.Regular

theorem Affix.kind_mem (a : Affix) : a.kind ∈ Affix.kinds := by
  cases a with
  | leaf l => exact l.kind_mem
  | folder f => simp [Affix.kind, Affix.kinds]

theorem Folder.script_opening {indentation t : String} {f : Folder} (h : f.script indentation = .ok t) :
    ∃ r, t.toList = "folder ".toList ++ r ∧ ∃ c r', r = c :: r' ∧ c ∈ ['\x7b', '"'] := by
  obtain ⟨o, ts, ho, -, rfl⟩ := Folder.script_eq_ok h
  obtain ⟨r, hr⟩ := toList_block "" ts
  refine ⟨_, by rw [String.toList_append, String.toList_append, List.append_assoc], ?_⟩
  rcases Json.present_eq_ok.mp ho with ⟨-, rfl⟩ | ⟨-, x, hx, rfl⟩
  · exact ⟨'\x7b', r, by simp [hr], by simp⟩
  · obtain ⟨z, -, rfl⟩ := Json.stringScript_eq_ok.mp hx
    have hz : ((Option.map (· ++ " ") (some (stringScript z))).getD "").toList =
        '"' :: (Text.doubled '"' z.toList ++ ['"'] ++ [' ']) := by
      rw [Option.map_some, Option.getD_some, String.toList_append, toList_stringScript]
      rfl
    exact ⟨'"', _, by rw [hz, List.cons_append], by simp⟩

theorem affixTexts {indentation : String} (hi : Blanks indentation) :
    AffixTexts Affix.Regular Affix.kind (Affix.script indentation) Affix.erased where
  kind_mem := Affix.kind_mem
  opening a t ha ht := by
    cases a with
    | leaf l => exact Leaf.script_opening ha ht
    | folder f =>
      obtain ⟨r, hr, hc⟩ := Folder.script_opening ht
      exact ⟨r, hr, fun _ => hc⟩
  separable := by
    -- No leaf begins as a folder does.
    have hne : ∀ {l : Leaf} {f : Folder} {t u : String}, l.Regular → l.script indentation = .ok t →
        f.script indentation = .ok u → ∀ r s, t.toList ++ r ≠ u.toList ++ s := by
      intro l f t u hl ht hu r s h
      obtain ⟨t', ht', -⟩ := Leaf.script_opening hl ht
      obtain ⟨u', hu', -⟩ := Folder.script_opening hu
      rw [ht', hu', List.append_assoc, List.append_assoc] at h
      have hk : l.kind = .folder := opening_append l.kind_mem (by decide) h
      cases l <;> cases hk
    intro a b t u r s wa wb hr hs h
    obtain ⟨hra, ha⟩ := wa
    obtain ⟨hrb, hb⟩ := wb
    cases a with
    | leaf l =>
      cases b with
      | leaf m =>
        obtain ⟨hlm, hrs⟩ := leaf_separable hi ⟨hra, ha⟩ ⟨hrb, hb⟩ hr hs h
        exact ⟨congrArg Affix.leaf hlm, hrs⟩
      | folder g => exact absurd h (hne hra ha hb r s)
    | folder f =>
      cases b with
      | leaf m => exact absurd h.symm (hne hrb hb ha s r)
      | folder g =>
        obtain ⟨hfg, hrs⟩ := folder_separable hi ⟨hra, ha⟩ ⟨hrb, hb⟩ trivial trivial h
        exact ⟨congrArg Affix.folder hfg, hrs⟩

/-! ## Lines -/

def Line.erased : Line → Line
  | .setting s => .setting s.erased
  | .item i => .item (i.erasedBy Affix.erased)

def Line.Regular : Line → Prop
  | .setting s => s.Plain
  | .item i => i.Regular Affix.Regular

theorem Setting.script_cons {s : Setting} {t : String} (h : s.script = .ok t) :
    ∃ r, t.toList = (s.kind.keyword ++ ":").toList ++ r := by
  obtain ⟨x, -, rfl⟩ := map_eq_ok.mp h
  exact ⟨' ' :: x.toList, by simp⟩

theorem blanks_nil : Blanks "" := by simp [Blanks]

/-- An item begins as no setting does. -/
theorem setting_ne_item {s : Setting} {i : Item Affix} {t u : String} (hs : s.script = .ok t)
    (hi : i.Regular Affix.Regular) (hu : itemScript "" i = .ok u) (r r' : List Char) :
    t.toList ++ r ≠ u.toList ++ r' := by
  intro h
  obtain ⟨t', ht⟩ := Setting.script_cons hs
  have hall : ∀ k ∈ Setting.kinds,
      (∀ l ∈ Affix.kinds, ¬ (k.keyword ++ ":").toList <+: l.opening.toList ∧
        ¬ l.opening.toList <+: (k.keyword ++ ":").toList) ∧
      (∀ f ∈ SmallFlag.all, ¬ (k.keyword ++ ":").toList <+: (f.word ++ " ").toList ∧
        ¬ (f.word ++ " ").toList <+: (k.keyword ++ ":").toList) ∧
      ¬ (k.keyword ++ ":").toList <+: ['i', 'd', ':'] ∧ ¬ ['i', 'd', ':'] <+: (k.keyword ++ ":").toList := by decide
  obtain ⟨hopening, hflag, hid⟩ := hall s.kind s.kind_mem
  obtain ⟨a, groups, o, ha, -, ho, hu⟩ := (affixTexts blanks_nil).item_text hi hu
  rw [ht, hu, String.toList_empty, List.nil_append, List.append_assoc] at h
  by_cases hk : (Affix.kind i.affix).optionsFirst = true
  · simp only [hk, if_true, ho, List.cons_append] at h
    have hp : (s.kind.keyword ++ ":").toList <+: ['i', 'd', ':'] ++ _ := ⟨_, h⟩
    exact (List.prefix_or_prefix_of_prefix hp (List.prefix_append _ _)).elim hid.1 hid.2
  · simp only [hk, Bool.false_eq_true, if_false, List.append_assoc] at h
    exact (affixTexts blanks_nil).head_ne _ hopening hflag hi.affix ha _ _ h.symm

theorem line_separable :
    Separable LineEnd (fun l t => Line.Regular l ∧ Line.script l = .ok t) Line.erased := by
  intro l m t u r s wa wb hr hs h
  obtain ⟨hl, ht⟩ := wa
  obtain ⟨hm, hu⟩ := wb
  cases l with
  | setting x =>
    cases m with
    | setting y =>
      obtain ⟨hxy, hrs⟩ := setting_separable ⟨hl, ht⟩ ⟨hm, hu⟩ hr hs h
      exact ⟨congrArg Line.setting hxy, hrs⟩
    | item j => exact absurd h (setting_ne_item ht hm hu r s)
  | item i =>
    cases m with
    | setting y => exact absurd h.symm (setting_ne_item hu hl ht s r)
    | item j =>
      obtain ⟨hij, hrs⟩ := item_separable blanks_nil (affixTexts blanks_nil) ⟨hl, ht⟩ ⟨hm, hu⟩ hr hs h
      exact ⟨congrArg Line.item hij, hrs⟩

theorem line_ne_nil {l : Line} {t : String} (hl : l.Regular) (ht : l.script = .ok t) : t.toList ≠ [] := by
  cases l with
  | setting s =>
    obtain ⟨r, hr⟩ := Setting.script_cons ht
    simp [hr]
  | item i =>
    obtain ⟨a, groups, o, -, -, ho, hu⟩ := (affixTexts blanks_nil).item_text hl ht
    rw [hu]
    split <;> simp

/-! ## Programs -/

def Program.erased (p : Program) : Program := ⟨p.lines.map Line.erased⟩

def Program.Regular (p : Program) : Prop := ∀ l ∈ p.lines, l.Regular

theorem Program.erased_eq_of_script_eq {p q : Program} {t : String} (hp : p.Regular) (hq : q.Regular)
    (ht : p.script = .ok t) (hu : q.script = .ok t) : p.erased = q.erased := by
  have he : Ends "\n" (fun l t => Line.Regular l ∧ Line.script l = .ok t) LineEnd (· = []) := by
    refine ⟨?_, fun r => by simp, fun _ _ _ _ h => by simp at h⟩
    intro _ et
    subst et
    exact lineEnd_nil
  have hj := line_separable.joined he fun l t r hl h => line_ne_nil hl.1 hl.2 (List.append_eq_nil_iff.mp h).1
  obtain ⟨ts, hts, rfl⟩ := map_eq_ok.mp ht
  obtain ⟨us, hus, htu⟩ := map_eq_ok.mp hu
  have hlines := hj.same_text rfl ⟨ts, forall₂_of_mapM hp hts, rfl⟩ ⟨us, forall₂_of_mapM hq hus, htu⟩
  rw [Program.erased, Program.erased, hlines]

end GraphScript
