/-
  GraphScript.Proofs.Records.Dumps — a program is known from its dump.

  The dump of a record says its kind first, and then shows each field that is not null under its
  name. The names of a kind differ, so the dump tells the kind and what each field shows
  (`record_inj`). In a field stands only one sort of thing, and no two things of one sort show
  alike.

  Flags are the exception: a word shows as the text that it is, and so does a text in place of one.
  They are told apart where the flags of a group are all words or all values.

  - `Program.dump_inj`: programs whose flags are so (`Program.Faithful`).
-/
import GraphScript.Proofs.Documents.Carried
import GraphScript.Proofs.Script.Groups

namespace GraphScript

/-! ## Kinds and words -/

/-- Texts that differ along a list of all things tell them. -/
theorem injective_of_nodup {α β : Type} {all : List α} {word : α → β} (hall : ∀ a, a ∈ all)
    (hn : (all.map word).Nodup) : Function.Injective word :=
  fun a b h => List.inj_on_of_nodup_map hn (hall a) (hall b) h

theorem Kind.name_injective : Function.Injective Kind.name := injective_of_nodup mem_all (by decide)

theorem FlagWord.word_injective : Function.Injective FlagWord.word := injective_of_nodup mem_all (by decide)

theorem SmallFlag.word_injective : Function.Injective SmallFlag.word := injective_of_nodup mem_all (by decide)

theorem ArrowMode.word_injective : Function.Injective ArrowMode.word :=
  injective_of_nodup (fun m => by cases m <;> decide : ∀ m, m ∈ all) (by decide)

theorem Visibility.word_injective : Function.Injective Visibility.word :=
  injective_of_nodup (fun v => by cases v <;> decide : ∀ v, v ∈ all) (by decide)

/-- A record says of itself its type, its keyword and its fields, each under a name of its own. -/
theorem Kind.keys_nodup (k : Kind) : ((Tree.heading k).map (·.1) ++ k.fields.map (·.name)).Nodup := by
  have hall : ∀ k ∈ all, ((Tree.heading k).map (·.1) ++ k.fields.map (·.name)).Nodup := by decide
  exact hall k k.mem_all

namespace Tree

/-! ## Fields -/

/-- What a record shows of the value of a field: nothing, if it is null. -/
def shown (t : Tree) : Option Json := if t.isNull then none else some t.dump

theorem shown_of_not_null {t : Tree} (h : t.isNull = false) : t.shown = some t.dump := by
  rw [shown, h]
  rfl

@[simp] theorem plain_shown_inj {a b : Json} : (plain a).shown = (plain b).shown ↔ a = b := by
  refine ⟨fun h => ?_, fun h => h ▸ rfl⟩
  cases a <;> cases b <;> simp_all [shown, isNull, dump]

theorem dumpAll_eq (ts : List Tree) : dumpAll ts = ts.map dump := by
  induction ts with
  | nil => rfl
  | cons t ts ih => rw [dumpAll, ih, List.map_cons]

/-- A dump has the fields that show something. -/
theorem dumpFields_eq : ∀ (names : List String) (ts : List Tree),
    dumpFields names ts = GraphScript.present (names.zip (ts.map shown))
  | [], _ => by simp [dumpFields, GraphScript.present]
  | _ :: _, [] => by simp [dumpFields, GraphScript.present]
  | name :: names, t :: ts => by
    rw [dumpFields, dumpFields_eq names ts, List.map_cons, List.zip_cons_cons, shown]
    split <;> simp [GraphScript.present]

/-- The dump of a record tells its kind and what each field shows. -/
theorem record_inj {k l : Kind} {ts us : List Tree} (ht : ts.length = k.fields.length)
    (hu : us.length = l.fields.length) (h : (record k ts).dump = (record l us).dump) :
    k = l ∧ ts.map shown = us.map shown := by
  rw [dump, dump, Json.obj.injEq, heading, heading, List.cons_append, List.cons_append, List.cons.injEq] at h
  obtain ⟨htype, hrest⟩ := h
  obtain rfl : k = l := Kind.name_injective (Json.str.inj (congrArg Prod.snd htype))
  have hnames : ∀ {xs : List Tree}, xs.length = k.fields.length →
      ((k.fields.map (·.name)).zip (xs.map shown)).map (·.1) = k.fields.map (·.name) := fun hx =>
    List.map_fst_zip (by simp [hx])
  have hvalues : ∀ {xs : List Tree}, xs.length = k.fields.length →
      ((k.fields.map (·.name)).zip (xs.map shown)).map (·.2) = xs.map shown := fun hx => List.map_snd_zip (by simp [hx])
  -- The headings agree with the kinds, and what is left are the fields that show something.
  have hpresent := List.append_cancel_left hrest
  rw [dumpFields_eq, dumpFields_eq] at hpresent
  have hzip := present_inj ((hnames ht).trans (hnames hu).symm)
    ((hnames ht).symm ▸ (List.nodup_append.mp k.keys_nodup).2.1) hpresent
  exact ⟨rfl, by rw [← hvalues ht, hzip, hvalues hu]⟩

/-! ## Optional values and lists -/

section

variable {α : Type} {f : α → Tree}

theorem shown_inj (hn : ∀ a, (f a).isNull = false) (hf : Function.Injective fun a => (f a).dump) {a b : α} :
    (f a).shown = (f b).shown ↔ a = b := by
  rw [shown_of_not_null (hn a), shown_of_not_null (hn b), Option.some.injEq]
  exact hf.eq_iff

theorem treeOf_shown_inj (hn : ∀ a, (f a).isNull = false) (hf : Function.Injective fun a => (f a).dump)
    {o o' : Option α} : (treeOf f o).shown = (treeOf f o').shown ↔ o = o' := by
  have hshown : ∀ o, (treeOf f o).shown = o.map fun a => (f a).dump := by
    rintro (_ | a)
    · rfl
    · exact shown_of_not_null (hn a)
  rw [hshown, hshown]
  exact (Option.map_injective hf).eq_iff

theorem treesOf_shown (xs : List α) : (treesOf f xs).shown = some (.arr (xs.map fun x => (f x).dump)) := by
  rw [shown_of_not_null rfl, treesOf, dump, dumpAll_eq, List.map_map]
  rfl

/-- Lists of things that are told apart. -/
theorem treesOf_injOn {W : α → Prop} (hf : ∀ a b, W a → W b → (f a).dump = (f b).dump → a = b) {xs ys : List α}
    (hx : ∀ x ∈ xs, W x) (hy : ∀ y ∈ ys, W y) (h : (treesOf f xs).shown = (treesOf f ys).shown) : xs = ys := by
  rw [treesOf_shown, treesOf_shown, Option.some.injEq, Json.arr.injEq] at h
  induction xs generalizing ys with
  | nil => exact (List.map_eq_nil_iff.mp h.symm).symm
  | cons x xs ih =>
    obtain ⟨y, ys, rfl, hxy, hrest⟩ := List.map_eq_cons_iff.mp h.symm
    rw [List.forall_mem_cons] at hx hy
    rw [hf x y hx.1 hy.1 hxy.symm, ih hx.2 hy.2 hrest.symm]

theorem treesOf_shown_inj (hf : Function.Injective fun a => (f a).dump) {xs ys : List α} :
    (treesOf f xs).shown = (treesOf f ys).shown ↔ xs = ys :=
  ⟨treesOf_injOn (W := fun _ => True) (fun _ _ _ _ h => hf h) (fun _ _ => trivial) (fun _ _ => trivial),
    fun h => h ▸ rfl⟩

/-- Things that show as texts of their own. -/
theorem dump_injective_of_text {word : α → String} (hw : Function.Injective word)
    (hf : ∀ a, (f a).dump = .str (word a)) : Function.Injective fun a => (f a).dump := by
  intro a b h
  dsimp only at h
  rw [hf, hf] at h
  exact hw (Json.str.inj h)

end

end Tree

/-! ## Parts of programs -/

open GraphScript.Tree

@[simp] theorem str_shown_inj {s t : String} : (Tree.str s).shown = (Tree.str t).shown ↔ s = t := by simp [Tree.str]

@[simp] theorem texts_shown_inj {o o' : Option String} :
    (treeOf Tree.str o).shown = (treeOf Tree.str o').shown ↔ o = o' :=
  treeOf_shown_inj (fun _ => rfl) (dump_injective_of_text (fun _ _ h => h) fun _ => rfl)

theorem Latex.dump_injective : Function.Injective fun l : Latex => l.tree.dump := by
  rintro ⟨s⟩ ⟨t⟩ h
  obtain ⟨-, hs⟩ := record_inj rfl rfl h
  simpa using hs

@[simp] theorem latex_shown_inj {l m : Latex} : l.tree.shown = m.tree.shown ↔ l = m :=
  shown_inj (fun _ => rfl) Latex.dump_injective

@[simp] theorem optionalLatex_shown_inj {o o' : Option Latex} :
    (treeOf Latex.tree o).shown = (treeOf Latex.tree o').shown ↔ o = o' :=
  treeOf_shown_inj (fun _ => rfl) Latex.dump_injective

@[simp] theorem latexes_shown_inj {ls ms : List Latex} :
    (treesOf Latex.tree ls).shown = (treesOf Latex.tree ms).shown ↔ ls = ms :=
  treesOf_shown_inj Latex.dump_injective

theorem Interval.dump_injective : Function.Injective fun i : Interval => i.tree.dump := by
  rintro ⟨min, max, step⟩ ⟨min', max', step'⟩ h
  obtain ⟨-, hs⟩ := record_inj rfl rfl h
  simpa using hs

@[simp] theorem interval_shown_inj {i j : Interval} : i.tree.shown = j.tree.shown ↔ i = j :=
  shown_inj (fun _ => rfl) Interval.dump_injective

@[simp] theorem optionalInterval_shown_inj {o o' : Option Interval} :
    (treeOf Interval.tree o).shown = (treeOf Interval.tree o').shown ↔ o = o' :=
  treeOf_shown_inj (fun _ => rfl) Interval.dump_injective

theorem NumberInterval.dump_injective : Function.Injective fun i : NumberInterval => i.tree.dump := by
  rintro ⟨start, stop⟩ ⟨start', stop'⟩ h
  obtain ⟨-, hs⟩ := record_inj rfl rfl h
  simpa using hs

@[simp] theorem optionalBounds_shown_inj {o o' : Option NumberInterval} :
    (treeOf NumberInterval.tree o).shown = (treeOf NumberInterval.tree o').shown ↔ o = o' :=
  treeOf_shown_inj (fun _ => rfl) NumberInterval.dump_injective

@[simp] theorem optionalArrow_shown_inj {o o' : Option ArrowMode} :
    (treeOf ArrowMode.tree o).shown = (treeOf ArrowMode.tree o').shown ↔ o = o' :=
  treeOf_shown_inj (fun _ => rfl) (dump_injective_of_text ArrowMode.word_injective fun _ => rfl)

@[simp] theorem optionalVisibility_shown_inj {o o' : Option Visibility} :
    (treeOf Visibility.tree o).shown = (treeOf Visibility.tree o').shown ↔ o = o' :=
  treeOf_shown_inj (fun _ => rfl) (dump_injective_of_text Visibility.word_injective fun _ => rfl)

@[simp] theorem smallFlags_shown_inj {fs gs : List SmallFlag} :
    (treesOf SmallFlag.tree fs).shown = (treesOf SmallFlag.tree gs).shown ↔ fs = gs :=
  treesOf_shown_inj (dump_injective_of_text SmallFlag.word_injective fun _ => rfl)

theorem ClickableRule.dump_injective : Function.Injective fun r : ClickableRule => r.tree.dump := by
  rintro ⟨id, assignment, expression⟩ ⟨id', assignment', expression'⟩ h
  obtain ⟨-, hs⟩ := record_inj rfl rfl h
  simpa using hs

@[simp] theorem rules_shown_inj {rs ss : List ClickableRule} :
    (treesOf ClickableRule.tree rs).shown = (treesOf ClickableRule.tree ss).shown ↔ rs = ss :=
  treesOf_shown_inj ClickableRule.dump_injective

theorem RegressionParameter.dump_injective : Function.Injective fun p : RegressionParameter => p.tree.dump := by
  rintro ⟨parameter, value⟩ ⟨parameter', value'⟩ h
  obtain ⟨-, hs⟩ := record_inj rfl rfl h
  simpa using hs

@[simp] theorem parameters_shown_inj {ps qs : List RegressionParameter} :
    (treesOf RegressionParameter.tree ps).shown = (treesOf RegressionParameter.tree qs).shown ↔ ps = qs :=
  treesOf_shown_inj RegressionParameter.dump_injective

/-! ## Flags -/

section

variable {P : Json → Prop}

theorem words_shown_inj {flags flags' : List Flag} (hf : ∀ f ∈ flags, ∃ w, f = .word w)
    (hf' : ∀ f ∈ flags', ∃ w, f = .word w)
    (h : (treesOf Flag.tree flags).shown = (treesOf Flag.tree flags').shown) : flags = flags' := by
  refine treesOf_injOn ?_ hf hf' h
  rintro _ _ ⟨v, rfl⟩ ⟨w, rfl⟩ hvw
  exact congrArg Flag.word (FlagWord.word_injective (Json.str.inj hvw))

theorem given_shown_inj {flags flags' : List Flag} (hf : ∀ f ∈ flags, ∃ v, f = .given v ∧ P v)
    (hf' : ∀ f ∈ flags', ∃ v, f = .given v ∧ P v)
    (h : (treesOf Flag.tree flags).shown = (treesOf Flag.tree flags').shown) : flags = flags' := by
  refine treesOf_injOn ?_ hf hf' h
  rintro _ _ ⟨v, rfl, -⟩ ⟨w, rfl, -⟩ hvw
  exact congrArg Flag.given hvw

theorem OptionGroup.Faithful.words {g : OptionGroup} (h : g.Faithful P) (hk : g.kind ≠ .histogramModeOption) :
    ∀ f ∈ g.flags, ∃ w, f = .word w := by
  intro f hf
  obtain ⟨w, -, hw⟩ := List.mem_map.mp ((h.1 hk).subset hf)
  exact ⟨w, hw.symm⟩

theorem OptionGroup.Faithful.given {g : OptionGroup} (h : g.Faithful P) (hk : g.kind = .histogramModeOption) :
    ∀ f ∈ g.flags, ∃ v, f = .given v ∧ P v := by
  cases g with
  | histogramMode flags => exact h.2
  | _ => cases hk

/-- Groups of one kind have flags of one sort. -/
theorem OptionGroup.Faithful.flags_inj {g g' : OptionGroup} (h : g.Faithful P) (h' : g'.Faithful P)
    (hk : g.kind = g'.kind) (hs : (treesOf Flag.tree g.flags).shown = (treesOf Flag.tree g'.flags).shown) :
    g.flags = g'.flags := by
  by_cases hm : g.kind = .histogramModeOption
  · exact given_shown_inj (h.given hm) (h'.given (hk ▸ hm)) hs
  · exact words_shown_inj (h.words hm) (h'.words (hk ▸ hm)) hs

/-! ## Groups and settings -/

theorem OptionGroup.dump_inj {g g' : OptionGroup} (h : g.Faithful P) (h' : g'.Faithful P)
    (hd : g.tree.dump = g'.tree.dump) : g = g' := by
  obtain ⟨hk, hs⟩ := record_inj (by cases g <;> rfl) (by cases g' <;> rfl) hd
  have hflags := h.flags_inj h' hk
  -- The kinds agree, so two groups of one sort are left each time.
  cases g <;> cases g' <;> cases hk
  all_goals
    simp only [flags] at hflags
    simp at hs
    grind

theorem Setting.dump_inj {s s' : Setting} (h : s.Faithful P) (h' : s'.Faithful P) (hd : s.tree.dump = s'.tree.dump) :
    s = s' := by
  obtain ⟨hk, hs⟩ := record_inj (by cases s <;> rfl) (by cases s' <;> rfl) hd
  cases s with
  | flags words =>
    cases s' with
    | flags words' =>
      rw [List.map_singleton, List.map_singleton, List.singleton_inj] at hs
      rw [words_shown_inj h h' hs]
    | _ => cases hk
  | _ =>
    cases s' <;> cases hk
    simpa using hs

/-! ## Items -/

theorem groups_inj {gs hs : List OptionGroup} (hg : ∀ g ∈ gs, g.Faithful P) (hh : ∀ g ∈ hs, g.Faithful P)
    (h : (treesOf OptionGroup.tree gs).shown = (treesOf OptionGroup.tree hs).shown) : gs = hs :=
  treesOf_injOn (fun _ _ => OptionGroup.dump_inj) hg hh h

theorem Column.dump_inj {c d : Column} (hc : c.Faithful P) (hd : d.Faithful P) (h : c.tree.dump = d.tree.dump) :
    c = d := by
  obtain ⟨values, header, smallFlags, options⟩ := c
  obtain ⟨values', header', smallFlags', options'⟩ := d
  obtain ⟨-, hs⟩ := record_inj rfl rfl h
  simp only [List.map_cons, List.cons.injEq, latexes_shown_inj, optionalLatex_shown_inj, smallFlags_shown_inj] at hs
  obtain ⟨rfl, rfl, rfl, hoptions, -⟩ := hs
  obtain rfl : options = options' := groups_inj hc hd hoptions
  rfl

theorem Leaf.dump_inj {l m : Leaf} (hl : l.Faithful P) (hm : m.Faithful P) (h : l.tree.dump = m.tree.dump) :
    l = m := by
  obtain ⟨hk, hs⟩ := record_inj (by cases l <;> rfl) (by cases m <;> rfl) h
  cases l with
  | table columns =>
    cases m with
    | table columns' =>
      rw [List.map_singleton, List.map_singleton, List.singleton_inj] at hs
      rw [treesOf_injOn (fun _ _ => Column.dump_inj) hl hm hs]
    | _ => cases hk
  | _ =>
    cases m <;> cases hk
    simpa using hs

theorem Item.dump_inj {α : Type} {affix : α → Tree} {W : α → Prop} (hn : ∀ a, (affix a).isNull = false)
    (ha : ∀ a b, W a → W b → (affix a).dump = (affix b).dump → a = b) {i j : Item α} (hi : i.Faithful P W)
    (hj : j.Faithful P W) (h : (i.tree affix).dump = (j.tree affix).dump) : i = j := by
  obtain ⟨a, smallFlags, options⟩ := i
  obtain ⟨b, smallFlags', options'⟩ := j
  obtain ⟨-, hs⟩ := record_inj rfl rfl h
  simp only [List.map_cons, List.cons.injEq, smallFlags_shown_inj, shown_of_not_null (hn _), Option.some.injEq] at hs
  obtain ⟨haffix, rfl, hoptions, -⟩ := hs
  obtain rfl := ha a b hi.1 hj.1 haffix
  obtain rfl : options = options' := groups_inj hi.2 hj.2 hoptions
  rfl

theorem Folder.dump_inj {f g : Folder} (hf : f.Faithful P) (hg : g.Faithful P) (h : f.tree.dump = g.tree.dump) :
    f = g := by
  obtain ⟨title, children⟩ := f
  obtain ⟨title', children'⟩ := g
  obtain ⟨-, hs⟩ := record_inj rfl rfl h
  simp only [List.map_cons, List.cons.injEq, plain_shown_inj] at hs
  obtain ⟨hchildren, rfl, -⟩ := hs
  obtain rfl : children = children' :=
    treesOf_injOn (fun _ _ => Item.dump_inj (fun _ => rfl) fun _ _ => Leaf.dump_inj) hf.2 hg.2 hchildren
  rfl

theorem Affix.dump_inj {a b : Affix} (ha : a.Faithful P) (hb : b.Faithful P) (h : a.tree.dump = b.tree.dump) :
    a = b := by
  cases a with
  | leaf l =>
    cases b with
    | leaf m => rw [Leaf.dump_inj ha hb h]
    | folder g =>
      obtain ⟨hk, -⟩ := record_inj (by cases l <;> rfl) rfl h
      cases l <;> cases hk
  | folder f =>
    cases b with
    | leaf m =>
      obtain ⟨hk, -⟩ := record_inj rfl (by cases m <;> rfl) h
      cases m <;> cases hk
    | folder g => rw [Folder.dump_inj ha hb h]

/-! ## Programs -/

theorem Line.dump_inj {l m : Line} (hl : l.Faithful P) (hm : m.Faithful P) (h : l.tree.dump = m.tree.dump) :
    l = m := by
  have haffix : ∀ a : Affix, a.tree.isNull = false := by rintro (_ | _) <;> rfl
  cases l with
  | setting s =>
    cases m with
    | setting s' => rw [Setting.dump_inj hl hm h]
    | item j =>
      obtain ⟨hk, -⟩ := record_inj (by cases s <;> rfl) rfl h
      cases s <;> cases hk
  | item i =>
    cases m with
    | setting s =>
      obtain ⟨hk, -⟩ := record_inj rfl (by cases s <;> rfl) h
      cases s <;> cases hk
    | item j => rw [Item.dump_inj haffix (fun _ _ => Affix.dump_inj) hl hm h]

/-- A program is known from its dump. -/
theorem Program.dump_inj {p q : Program} (hp : p.Faithful P) (hq : q.Faithful P) (h : p.dump = q.dump) : p = q := by
  obtain ⟨lines⟩ := p
  obtain ⟨lines'⟩ := q
  have hlines : (treesOf Line.tree lines).shown = (treesOf Line.tree lines').shown := by
    simp only [dump, dumpLines, Json.obj.injEq, List.cons.injEq, Prod.mk.injEq] at h
    exact congrArg some h.1.2
  obtain rfl : lines = lines' := treesOf_injOn (fun _ _ => Line.dump_inj) hp hq hlines
  rfl

end

end GraphScript
