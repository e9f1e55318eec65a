/-
  GraphScript.Proofs.Script.Items — an item is known from its text.

  An item with an id and an affix begins with the id where the options come first, and with a small
  flag or the affix where they come last. A list of options ends where no further keyword and colon
  follow; small flags end where the affix begins, and each affix begins in its own way.

  Headers of columns and the form of numbers are not in the text, nor is the form of a title that
  says nothing (`Item.erased`).
-/
import GraphScript.Proofs.Script.Groups

namespace GraphScript

open Faults

theorem LineEnd.groupEnd {r : List Char} (h : LineEnd r) : GroupEnd r :=
  h.mono fun c hc => by simp at hc ⊢; exact .inr hc

theorem OptionGroup.script_cons {indentation t : String} {g : OptionGroup} (h : g.script indentation = .ok t) :
    ∃ r, t.toList = g.kind.keyword.toList ++ ':' :: r := by
  simp only [OptionGroup.script, bind_eq_ok, pure_eq, Except.ok.injEq] at h
  obtain ⟨first, -, flags, -, rfl⟩ := h
  generalize first ++ _ ++ _ = body
  by_cases hb : body = ""
  · exact ⟨[], by simp [hb]⟩
  · exact ⟨' ' :: body.toList, by simp [hb]⟩

/-! ## Lists of options -/

/-- No option comes next: what stands before the next colon is no word. -/
def OptionsEnd (r : List Char) : Prop := (r.dropWhile isWordChar).head? ≠ some ':'

theorem optionsEnd_append {w r : List Char} (hw : w.all isWordChar = true) : OptionsEnd (w ++ r) ↔ OptionsEnd r := by
  rw [OptionsEnd, OptionsEnd, List.dropWhile_append_of_pos (List.all_eq_true.mp hw)]

theorem LineEnd.optionsEnd {r : List Char} (h : LineEnd r) : OptionsEnd r := by
  cases r with
  | nil => simp [OptionsEnd]
  | cons c r =>
    obtain rfl := lineEnd_cons.mp h
    simp [OptionsEnd, isWordChar]

/-- Groups one after another, each closed by a semicolon. -/
def optionsScript (groups : List String) : String := Text.joined " " (groups.map (· ++ ";"))

theorem options_separable {indentation : String} (hi : Blanks indentation) : Separable OptionsEnd
    (fun gs t => (∀ g ∈ gs, OptionGroup.Plain g) ∧
      ∃ texts, gs.mapM (OptionGroup.script indentation) = .ok texts ∧ optionsScript texts = t)
    (List.map OptionGroup.erased) := by
  let writes := fun (g : OptionGroup) (t : String) => ∃ u, (g.Plain ∧ g.script indentation = .ok u) ∧ u ++ ";" = t
  have hclosed : Separable (fun _ => True) writes OptionGroup.erased := by
    intro a b _ _ r s wa wb _ _ h
    obtain ⟨t, ha, rfl⟩ := wa
    obtain ⟨u, hb, rfl⟩ := wb
    simp only [String.toList_append, List.append_assoc] at h
    obtain ⟨hab, h1⟩ := OptionGroup.separable hi ha hb (by simp) (by simp) h
    exact ⟨hab, List.append_cancel_left h1⟩
  have hnext : ∀ g t r, writes g t → ¬ OptionsEnd (t.toList ++ r) := by
    intro g _ r w h
    obtain ⟨u, ⟨-, hu⟩, rfl⟩ := w
    obtain ⟨u', hu'⟩ := OptionGroup.script_cons hu
    rw [String.toList_append, hu', List.append_assoc, List.append_assoc,
      optionsEnd_append (List.all_eq_true.mpr (keyword_isWordChar _ (Kind.mem_all _)))] at h
    simp [OptionsEnd, isWordChar] at h
  have he : Ends " " writes (fun _ => True) OptionsEnd :=
    ⟨fun _ _ => trivial, fun _ => trivial, fun g t r ht h => hnext g t r ht ((optionsEnd_append (by decide)).mp h)⟩
  have hj := hclosed.joined he hnext
  have hopts : ∀ {gs : List OptionGroup} {texts : List String}, (∀ g ∈ gs, g.Plain) →
      gs.mapM (OptionGroup.script indentation) = .ok texts → Joined " " writes gs (optionsScript texts) := by
    intro gs texts hp h
    exact ⟨_, List.forall₂_map_right_iff.mpr ((forall₂_of_mapM hp h).imp fun g u hu => ⟨u, hu, rfl⟩), rfl⟩
  intro a b _ _ r s wa wb hr hs h
  obtain ⟨hpa, ta, ha, rfl⟩ := wa
  obtain ⟨hpb, tb, hb, rfl⟩ := wb
  exact hj (hopts hpa ha) (hopts hpb hb) hr hs h

/-! ## Columns -/

/-- A column without its header. -/
def Column.erased (c : Column) : Column := { c with header := none, options := c.options.map OptionGroup.erased }

def Column.Plain (c : Column) : Prop := ∀ g ∈ c.options, g.Plain

theorem cells_separable : Separable (fun _ => True) (fun ls t => cellsScript ls = t) id := by
  have he : Ends ", " (fun l t => Latex.script l = t) (Opens (· != '\x60')) (Opens (· == ']')) := by
    refine ⟨fun r hr => hr.mono fun c hc => ?_, fun r => by simp, fun _ _ _ _ h => by simp at h⟩
    rw [beq_iff_eq] at hc
    simp [hc]
  have hj := Latex.separable.joined he fun l t r ht h => by
    obtain rfl := ht
    simp [toList_latex] at h
  rw [List.map_id_fun] at hj
  have hcells : ∀ ls : List Latex,
      Joined ", " (fun l t => Latex.script l = t) ls (Text.joined ", " (ls.map Latex.script)) := by
    intro ls
    exact ⟨_, List.forall₂_map_right_iff.mpr (List.forall₂_same.mpr fun _ _ => rfl), rfl⟩
  intro a b _ _ r s et eu _ _ h
  subst et eu
  simp only [cellsScript, String.toList_append, List.append_assoc, List.append_cancel_left_eq] at h
  obtain ⟨hab, h1⟩ := hj (hcells a) (hcells b) (by simp) (by simp) h
  exact ⟨hab, List.append_cancel_left h1⟩

theorem flagsEnd_of_initial {c : Char} {r : List Char} (h : c ∉ ['s', 'h', 'f', 'd', 'p', 'c']) : FlagsEnd (c :: r) := by
  intro f hp
  cases f
  all_goals
    simp only [SmallFlag.word, String.toList_append, String.reduceToList, List.cons_append,
      List.cons_prefix_cons] at hp
    rw [← hp.1] at h
    exact h (by decide)

theorem column_separable {indentation : String} (hi : Blanks indentation) :
    Separable LineEnd (fun c t => Column.Plain c ∧ Column.script indentation c = .ok t) Column.erased := by
  have he : Ends "; " (fun g t => OptionGroup.Plain g ∧ OptionGroup.script indentation g = .ok t) GroupEnd LineEnd :=
    ⟨fun _ => LineEnd.groupEnd, fun r => by simp, fun _ _ _ _ h => by simp at h⟩
  have hc := (OptionGroup.separable hi).chained he
  intro a b t u r s wa wb hr hs h
  obtain ⟨v, l, fs, gs⟩ := a
  obtain ⟨v', l', fs', gs'⟩ := b
  obtain ⟨hpa, ha⟩ := wa
  obtain ⟨hpb, hb⟩ := wb
  simp only [Column.script, bind_eq_ok, pure_eq, Except.ok.injEq] at ha hb
  obtain ⟨ts, hts, rfl⟩ := ha
  obtain ⟨us, hus, rfl⟩ := hb
  simp only [String.toList_append, List.append_assoc, List.append_cancel_left_eq] at h
  have hcell : ∀ v r, FlagsEnd ((cellsScript v).toList ++ r) := by
    intro v r
    simp only [cellsScript, String.toList_append, List.append_assoc]
    exact flagsEnd_of_initial (by decide)
  obtain ⟨rfl, h1⟩ := flagsBefore_separable.eq rfl rfl (hcell _ _) (hcell _ _) h
  obtain ⟨rfl, h2⟩ := cells_separable.eq rfl rfl trivial trivial h1
  obtain ⟨hg, hrs⟩ := hc ⟨ts, forall₂_of_mapM hpa hts, rfl⟩ ⟨us, forall₂_of_mapM hpb hus, rfl⟩ hr hs h2
  exact ⟨by simp only [Column.erased, hg], hrs⟩

/-! ## How affixes begin -/

/-- The text that every affix of a kind begins with. -/
def Kind.opening : Kind → String
  | .table => "table "
  | .simulation => "simulation "
  | .folder => "folder "
  | .expression => "\x60"
  | .image => "image "
  | _ => "note"

def Affix.kinds : List Kind := [.folder, .table, .simulation, .expression, .image, .note]

/-- What may follow an affix: a blank that no literal stands behind, or the end of the line. -/
def AffixEnd (r : List Char) : Prop := Opens (· ∈ [' ', '\n']) r ∧ ∀ r', r ≠ ' ' :: '"' :: r'

theorem LineEnd.affixEnd {r : List Char} (h : LineEnd r) : AffixEnd r := by
  cases r with
  | nil => exact ⟨opens_nil _, nofun⟩
  | cons c r =>
    obtain rfl := lineEnd_cons.mp h
    exact ⟨by simp, by simp⟩

theorem AffixEnd.avoids {p : Char → Bool} {r : List Char} (h : AffixEnd r) (hp : [' ', '\n'].all p = true) :
    Opens p r := h.1.avoids hp

/-- Affixes of different kinds begin with different characters. -/
theorem opening_append {k l : Kind} {r s : List Char} (hk : k ∈ Affix.kinds) (hl : l ∈ Affix.kinds)
    (h : k.opening.toList ++ r = l.opening.toList ++ s) : k = l := by
  have hall : (Affix.kinds.map (·.opening.toList.head?)).Nodup ∧ ∀ k ∈ Affix.kinds, k.opening.toList ≠ [] := by decide
  have hh := congrArg List.head? h
  rw [List.head?_append_of_ne_nil _ (hall.2 k hk), List.head?_append_of_ne_nil _ (hall.2 l hl)] at hh
  exact List.inj_on_of_nodup_map hall.1 hk hl hh

theorem flagsEnd_opening {k : Kind} (hk : k ∈ Affix.kinds) (r : List Char) : FlagsEnd (k.opening.toList ++ r) := by
  intro f h
  have hp : (f.word ++ " ").toList <+: k.opening.toList ∨ k.opening.toList <+: (f.word ++ " ").toList :=
    List.prefix_or_prefix_of_prefix h (List.prefix_append _ _)
  have hall : ∀ k ∈ Affix.kinds, ∀ f ∈ SmallFlag.all,
      ¬ (f.word ++ " ").toList <+: k.opening.toList ∧ ¬ k.opening.toList <+: (f.word ++ " ").toList := by decide
  have := hall k hk f f.mem_all
  exact hp.elim this.1 this.2

/-! ## Leaves -/

def Leaf.erased : Leaf → Leaf
  | .table columns => .table (columns.map Column.erased)
  | l => l

/-- The flags of a table can stand in a script, and an expression has a text. -/
def Leaf.Regular : Leaf → Prop
  | .table columns => ∀ c ∈ columns, c.Plain
  | .expression latex => latex.isSome
  | _ => True

theorem Leaf.kind_mem (l : Leaf) : l.kind ∈ Affix.kinds := by
  cases l <;> simp [Leaf.kind, Affix.kinds]

/-- A leaf begins as its kind does, and where the options stand before it a brace follows. -/
theorem Leaf.script_opening {indentation t : String} {l : Leaf} (hl : l.Regular) (h : l.script indentation = .ok t) :
    ∃ r, t.toList = l.kind.opening.toList ++ r ∧
      (l.kind.optionsFirst = true → ∃ c r', r = c :: r' ∧ c ∈ ['\x7b', '"']) := by
  cases l with
  | table columns =>
    simp only [Leaf.script, bind_eq_ok, pure_eq, Except.ok.injEq] at h
    obtain ⟨texts, -, rfl⟩ := h
    obtain ⟨r, hr⟩ := toList_block indentation texts
    exact ⟨_, String.toList_append, fun _ => ⟨_, r, hr, by simp⟩⟩
  | simulation rules =>
    obtain rfl := Except.ok.inj h
    obtain ⟨r, hr⟩ := toList_block "" (rules.map (·.script (indented indentation)))
    exact ⟨_, String.toList_append, fun _ => ⟨_, r, hr, by simp⟩⟩
  | expression latex =>
    cases latex with
    | none => cases hl
    | some latex =>
      obtain rfl := Except.ok.inj h
      refine ⟨Text.doubled '\x60' latex.text.toList ++ ['\x60'], ?_, by intro h; cases h⟩
      simp [Leaf.kind, Kind.opening, toList_latex]
  | image url =>
    obtain ⟨x, -, rfl⟩ := map_eq_ok.mp h
    exact ⟨_, String.toList_append, by intro h; cases h⟩
  | note text =>
    obtain ⟨x, -, rfl⟩ := map_eq_ok.mp h
    cases x with
    | none => exact ⟨[], (List.append_nil _).symm, by intro h; cases h⟩
    | some x => exact ⟨' ' :: x.toList, by simp [Leaf.kind, Kind.opening], by intro h; cases h⟩

theorem table_separable {indentation : String} (hi : Blanks indentation) : Separable (fun _ => True)
    (fun cs t => (∀ c ∈ cs, Column.Plain c) ∧
      ∃ texts, cs.mapM (Column.script (indented indentation)) = .ok texts ∧ block indentation texts = t)
    (List.map Column.erased) := by
  have hdeep : ∀ (c : Column) t, (c.Plain ∧ c.script (indented indentation) = .ok t) →
      ∃ r, t.toList = indentation.toList ++ ' ' :: r := by
    intro c t w
    obtain ⟨-, h⟩ := w
    simp only [Column.script, bind_eq_ok, pure_eq, Except.ok.injEq] at h
    obtain ⟨texts, -, rfl⟩ := h
    simp only [String.toList_append, toList_indented, List.append_assoc]
    exact ⟨_, rfl⟩
  have hb := (column_separable hi.indented).block hdeep
  intro as bs _ _ r s wa wb _ _ h
  obtain ⟨hpa, ta, ha, rfl⟩ := wa
  obtain ⟨hpb, tb, hb', rfl⟩ := wb
  exact hb ⟨_, forall₂_of_mapM hpa ha, rfl⟩ ⟨_, forall₂_of_mapM hpb hb', rfl⟩ trivial trivial h

theorem Leaf.note_eq_ok {indentation t : String} {v : Json} (h : Leaf.script indentation (.note v) = .ok t) :
    ∃ o, v.present Json.stringScript = .ok o ∧ "note" ++ (o.map (" " ++ ·)).getD "" = t := by
  obtain ⟨o, ho, rfl⟩ := map_eq_ok.mp h
  refine ⟨o, ho, ?_⟩
  cases o with
  | none => rfl
  | some text => exact String.toList_inj.mp (by simp)

/-- A text stands behind a blank and begins with a quote, which nothing that follows a bare note does. -/
theorem noteText_separable : Separable AffixEnd
    (fun v t => ∃ o, Json.present Json.stringScript v = .ok o ∧ (o.map (" " ++ ·)).getD "" = t) id := by
  refine Json.optional_separable ?_ fun s r h => ?_
  · intro a b _ _ r s wa wb hr hs h
    obtain ⟨x, hx, rfl⟩ := wa
    obtain ⟨y, hy, rfl⟩ := wb
    simp only [String.toList_append, List.append_assoc] at h
    exact Json.string_separable hx hy (hr.avoids (by decide)) (hs.avoids (by decide)) (List.append_cancel_left h)
  · rw [String.toList_append, toList_stringScript] at h
    exact h.2 _ rfl

theorem leaf_separable {indentation : String} (hi : Blanks indentation) :
    Separable AffixEnd (fun l t => Leaf.Regular l ∧ Leaf.script indentation l = .ok t) Leaf.erased := by
  intro a b t u r s wa wb hr hs h
  obtain ⟨hla, ha⟩ := wa
  obtain ⟨hlb, hb⟩ := wb
  have hk : a.kind = b.kind := by
    obtain ⟨t', ht, -⟩ := Leaf.script_opening hla ha
    obtain ⟨u', hu, -⟩ := Leaf.script_opening hlb hb
    rw [ht, hu, List.append_assoc, List.append_assoc] at h
    exact opening_append a.kind_mem b.kind_mem h
  cases a with
  | table columns =>
    cases b with
    | table columns' =>
      simp only [Leaf.script, bind_eq_ok, pure_eq, Except.ok.injEq] at ha hb
      obtain ⟨ts, hts, rfl⟩ := ha
      obtain ⟨us, hus, rfl⟩ := hb
      simp only [String.toList_append, List.append_assoc, List.append_cancel_left_eq] at h
      obtain ⟨hc, hrs⟩ := table_separable hi ⟨hla, ts, hts, rfl⟩ ⟨hlb, us, hus, rfl⟩ trivial trivial h
      exact ⟨congrArg Leaf.table hc, hrs⟩
    | _ => cases hk
  | simulation rules =>
    cases b with
    | simulation rules' =>
      obtain rfl := Except.ok.inj ha
      obtain rfl := Except.ok.inj hb
      simp only [String.toList_append, List.append_assoc, List.append_cancel_left_eq] at h
      obtain ⟨rfl, hrs⟩ := (rules_separable hi).eq rfl rfl trivial trivial h
      exact ⟨rfl, hrs⟩
    | _ => cases hk
  | expression latex =>
    cases b with
    | expression latex' =>
      cases latex with
      | none => cases hla
      | some l =>
        cases latex' with
        | none => cases hlb
        | some l' =>
          obtain ⟨rfl, hrs⟩ := Latex.separable.eq (Except.ok.inj ha) (Except.ok.inj hb) (hr.avoids (by decide))
            (hs.avoids (by decide)) h
          exact ⟨rfl, hrs⟩
    | _ => cases hk
  | image url =>
    cases b with
    | image url' =>
      obtain ⟨x, hx, rfl⟩ := map_eq_ok.mp ha
      obtain ⟨y, hy, rfl⟩ := map_eq_ok.mp hb
      simp only [String.toList_append, List.append_assoc, List.append_cancel_left_eq] at h
      obtain ⟨rfl, hrs⟩ := Json.string_separable.eq hx hy (hr.avoids (by decide)) (hs.avoids (by decide)) h
      exact ⟨rfl, hrs⟩
    | _ => cases hk
  | note text =>
    cases b with
    | note text' =>
      obtain ⟨o, ho, rfl⟩ := Leaf.note_eq_ok ha
      obtain ⟨o', ho', rfl⟩ := Leaf.note_eq_ok hb
      simp only [String.toList_append, List.append_assoc] at h
      obtain ⟨hab, hrs⟩ := noteText_separable.eq ⟨o, ho, rfl⟩ ⟨o', ho', rfl⟩ hr hs (List.append_cancel_left h)
      exact ⟨congrArg Leaf.note hab, hrs⟩
    | _ => cases hk

/-! ## Items -/

/-- An item that begins with its id, whose flags can stand in a script, and whose affix is regular. -/
structure Item.Regular {α : Type} (affix : α → Prop) (i : Item α) : Prop where
  id : ∃ value groups, i.options = .id value :: groups
  plain : ∀ g ∈ i.options, g.Plain
  affix : affix i.affix

/-- An item without what its text does not tell, given the same for its affix. -/
def Item.erasedBy {α : Type} (affix : α → α) (i : Item α) : Item α :=
  { i with affix := affix i.affix, options := i.options.map OptionGroup.erased }

/-- The texts of affixes of one sort: separable, each with the opening of its kind, and followed by a brace or a
    quote where the options stand before it. -/
structure AffixTexts {α : Type} (regular : α → Prop) (kind : α → Kind) (script : α → Except Fault String)
    (meaning : α → α) : Prop where
  separable : Separable AffixEnd (fun a t => regular a ∧ script a = .ok t) meaning
  kind_mem : ∀ a, kind a ∈ Affix.kinds
  opening : ∀ a t, regular a → script a = .ok t → ∃ r, t.toList = (kind a).opening.toList ++ r ∧
    ((kind a).optionsFirst = true → ∃ c r', r = c :: r' ∧ c ∈ ['\x7b', '"'])

theorem toList_itemLayout {kind : Kind} {indentation affix : String} {flags : List SmallFlag} {groups : List String}
    (ha : affix ≠ "") (hg : optionsScript groups ≠ "") :
    (itemLayout kind indentation flags affix groups).toList = indentation.toList ++
      if kind.optionsFirst then (optionsScript groups).toList ++ ' ' :: (flagsBefore flags ++ affix).toList
      else (flagsBefore flags ++ affix).toList ++ ' ' :: (optionsScript groups).toList := by
  have hf : flagsBefore flags ++ affix ≠ "" := fun h => ha (String.append_eq_empty_iff.mp h).2
  rw [optionsScript] at hg
  simp only [itemLayout, if_neg ha, if_neg (not_or.mpr ⟨hf, hg⟩), String.toList_append]
  split <;> simp [optionsScript]

section

variable {α : Type} {regular : α → Prop} {kind : α → Kind} {script : α → Except Fault String} {meaning : α → α}

/-- The small flags of an item and its affix. -/
theorem AffixTexts.head (h : AffixTexts regular kind script meaning) : Separable AffixEnd
    (fun i t => ∃ u, (regular i.affix ∧ script i.affix = .ok u) ∧ flagsBefore i.smallFlags ++ u = t)
    (fun i : Item α => (i.smallFlags, meaning i.affix)) := by
  intro i j _ _ r s wa wb hr hs he
  obtain ⟨t, ht, rfl⟩ := wa
  obtain ⟨u, hu, rfl⟩ := wb
  have hend : ∀ a t, regular a ∧ script a = .ok t → ∀ r, FlagsEnd (t.toList ++ r) := by
    intro a t ha r
    obtain ⟨t', ht, -⟩ := h.opening a t ha.1 ha.2
    rw [ht, List.append_assoc]
    exact flagsEnd_opening (h.kind_mem a) _
  simp only [String.toList_append, List.append_assoc] at he
  obtain ⟨hf, h1⟩ := flagsBefore_separable.eq rfl rfl (hend _ t ht r) (hend _ u hu s) he
  obtain ⟨ha, hrs⟩ := h.separable ht hu hr hs h1
  exact ⟨Prod.ext hf ha, hrs⟩

/-- Small flags and an affix begin with nothing that neither a flag nor an affix of any kind begins with. -/
theorem AffixTexts.head_ne (h : AffixTexts regular kind script meaning) {a : α} {flags : List SmallFlag} {t : String}
    (start : List Char) (hk : ∀ k ∈ Affix.kinds, ¬ start <+: k.opening.toList ∧ ¬ k.opening.toList <+: start)
    (hf : ∀ f ∈ SmallFlag.all, ¬ start <+: (f.word ++ " ").toList ∧ ¬ (f.word ++ " ").toList <+: start)
    (ha : regular a) (ht : script a = .ok t) (r r' : List Char) :
    (flagsBefore flags ++ t).toList ++ r ≠ start ++ r' := by
  intro he
  -- Of two texts that begin the same text, one begins the other.
  have hcompare : ∀ {u v : List Char}, (flagsBefore flags ++ t).toList ++ r = u ++ v → start <+: u ∨ u <+: start :=
    fun hu => List.prefix_or_prefix_of_prefix ⟨r', he.symm.trans hu⟩ (List.prefix_append _ _)
  cases flags with
  | nil =>
    obtain ⟨t', ht', -⟩ := h.opening a t ha ht
    have := hk _ (h.kind_mem a)
    exact (hcompare (u := (kind a).opening.toList) (v := t' ++ r) (by simp [flagsBefore, ht'])).elim this.1 this.2
  | cons f flags =>
    have := hf f f.mem_all
    refine (hcompare (u := (f.word ++ " ").toList) (v := (flagsBefore flags ++ t).toList ++ r) ?_).elim this.1 this.2
    simp [flagsBefore, String.toList_join]

theorem flagsBefore_isWordChar (flags : List SmallFlag) : (flagsBefore flags).toList.all isWordChar = true := by
  have hall : ∀ f ∈ SmallFlag.all, (f.word ++ " ").toList.all isWordChar = true := by decide
  rw [List.all_eq_true]
  intro c hc
  rw [flagsBefore, String.toList_join, List.flatMap_map] at hc
  obtain ⟨f, -, hf⟩ := List.mem_flatMap.mp hc
  exact List.all_eq_true.mp (hall f f.mem_all) c hf

/-- Options before an affix end in front of its small flags. -/
theorem AffixTexts.optionsEnd (h : AffixTexts regular kind script meaning) {a : α} {t : String} (ha : regular a)
    (ht : script a = .ok t) (hk : (kind a).optionsFirst = true) (flags : List SmallFlag) (r : List Char) :
    OptionsEnd (' ' :: ((flagsBefore flags ++ t).toList ++ r)) := by
  obtain ⟨t', ht', hbody⟩ := h.opening a t ha ht
  obtain ⟨c, t'', rfl, hc⟩ := hbody hk
  have hword : ∀ k ∈ Affix.kinds, k.optionsFirst = true → k.opening.toList.all isWordChar = true := by decide
  have hsplit : ' ' :: ((flagsBefore flags ++ t).toList ++ r) =
      [' '] ++ ((flagsBefore flags).toList ++ ((kind a).opening.toList ++ (c :: (t'' ++ r)))) := by
    simp [ht']
  rw [hsplit, optionsEnd_append (by decide), optionsEnd_append (flagsBefore_isWordChar flags),
    optionsEnd_append (hword _ (h.kind_mem a) hk)]
  rcases List.mem_cons.mp hc with rfl | hc
  · simp [OptionsEnd, isWordChar]
  · obtain rfl := List.mem_singleton.mp hc
    simp [OptionsEnd, isWordChar]

/-- The options of an item with an id begin with it. -/
theorem options_begin {indentation value : String} {gs : List OptionGroup} {texts : List String}
    (h : (OptionGroup.id value :: gs).mapM (OptionGroup.script indentation) = .ok texts) :
    ∃ r, (optionsScript texts).toList = 'i' :: 'd' :: ':' :: r := by
  rw [mapM_eq_ok] at h
  cases h with
  | cons hid _ =>
    obtain ⟨r, hr⟩ := OptionGroup.script_cons hid
    rw [optionsScript, List.map_cons, Text.toList_joined_cons, String.toList_append, hr]
    simp only [OptionGroup.kind, Kind.keyword, String.reduceToList, List.cons_append, List.nil_append]
    exact ⟨_, rfl⟩

/-- An item with an id and an affix is its options and its head, in the order that its kind has. -/
theorem AffixTexts.item_text (h : AffixTexts regular kind script meaning) {indentation t : String} {i : Item α}
    (hi : i.Regular regular) (ht : i.scriptWith kind script indentation = .ok t) : ∃ a groups o,
      script i.affix = .ok a ∧ i.options.mapM (OptionGroup.script indentation) = .ok groups ∧
      (optionsScript groups).toList = 'i' :: 'd' :: ':' :: o ∧ t.toList = indentation.toList ++
        if (kind i.affix).optionsFirst then (optionsScript groups).toList ++ ' ' :: (flagsBefore i.smallFlags ++ a).toList
        else (flagsBefore i.smallFlags ++ a).toList ++ ' ' :: (optionsScript groups).toList := by
  simp only [Item.scriptWith, bind_eq_ok, pure_eq, Except.ok.injEq] at ht
  obtain ⟨a, ha, groups, hgroups, rfl⟩ := ht
  obtain ⟨value, rest, hoptions⟩ := hi.id
  obtain ⟨o, ho⟩ := options_begin (hoptions ▸ hgroups)
  refine ⟨a, groups, o, ha, hgroups, ho, toList_itemLayout ?_ ?_⟩
  · intro et
    subst et
    obtain ⟨r, hr, -⟩ := h.opening i.affix "" hi.affix ha
    have hall : ∀ k ∈ Affix.kinds, k.opening.toList ≠ [] := by decide
    exact hall _ (h.kind_mem i.affix) (List.append_eq_nil_iff.mp hr.symm).1
  · intro hn
    simp [hn] at ho

theorem item_separable {indentation : String} (hi : Blanks indentation) (h : AffixTexts regular kind script meaning) :
    Separable LineEnd (fun i t => Item.Regular regular i ∧ i.scriptWith kind script indentation = .ok t)
      (Item.erasedBy meaning) := by
  intro i j t u r s wa wb hr hs he
  obtain ⟨hri, ht⟩ := wa
  obtain ⟨hrj, hu⟩ := wb
  obtain ⟨ti, gi, oi, hti, hgi, hoi, ht⟩ := h.item_text hri ht
  obtain ⟨tj, gj, oj, htj, hgj, hoj, hu⟩ := h.item_text hrj hu
  rw [ht, hu, List.append_assoc, List.append_assoc, List.append_cancel_left_eq] at he
  have hopts := options_separable hi
  have hid : ∀ (i : Item α) t r r', regular i.affix → script i.affix = .ok t →
      (flagsBefore i.smallFlags ++ t).toList ++ r ≠ 'i' :: 'd' :: ':' :: r' := fun i t r r' ha ht =>
    h.head_ne ['i', 'd', ':'] (by decide) (by decide) ha ht r r'
  by_cases hki : (kind i.affix).optionsFirst = true <;> by_cases hkj : (kind j.affix).optionsFirst = true
  · simp only [hki, hkj, if_true, List.append_assoc, List.cons_append] at he
    obtain ⟨hg, h1⟩ := hopts ⟨hri.plain, gi, hgi, rfl⟩ ⟨hrj.plain, gj, hgj, rfl⟩
      (h.optionsEnd hri.affix hti hki _ r) (h.optionsEnd hrj.affix htj hkj _ s) he
    obtain ⟨hf, hrs⟩ := h.head ⟨ti, ⟨hri.affix, hti⟩, rfl⟩ ⟨tj, ⟨hrj.affix, htj⟩, rfl⟩
      hr.affixEnd hs.affixEnd (List.tail_eq_of_cons_eq h1)
    rw [Prod.mk.injEq] at hf
    exact ⟨by simp only [Item.erasedBy, hf, hg], hrs⟩
  · simp only [hki, hkj, if_true, Bool.false_eq_true, if_false, List.append_assoc, hoi, List.cons_append] at he
    exact absurd he.symm (hid j tj _ _ hrj.affix htj)
  · simp only [hki, hkj, if_true, Bool.false_eq_true, if_false, List.append_assoc, hoj, List.cons_append] at he
    exact absurd he (hid i ti _ _ hri.affix hti)
  · simp only [hki, hkj, Bool.false_eq_true, if_false, List.append_assoc, List.cons_append] at he
    have hend : ∀ {texts r' r}, (optionsScript texts).toList = 'i' :: r' →
        AffixEnd (' ' :: ((optionsScript texts).toList ++ r)) := by
      intro texts r' r ho
      exact ⟨by simp, by simp [ho]⟩
    obtain ⟨hf, h1⟩ := h.head ⟨ti, ⟨hri.affix, hti⟩, rfl⟩ ⟨tj, ⟨hrj.affix, htj⟩, rfl⟩
      (hend hoi) (hend hoj) he
    obtain ⟨hg, hrs⟩ := hopts ⟨hri.plain, gi, hgi, rfl⟩ ⟨hrj.plain, gj, hgj, rfl⟩ hr.optionsEnd hs.optionsEnd
      (List.tail_eq_of_cons_eq h1)
    rw [Prod.mk.injEq] at hf
    exact ⟨by simp only [Item.erasedBy, hf, hg], hrs⟩

end

end GraphScript
