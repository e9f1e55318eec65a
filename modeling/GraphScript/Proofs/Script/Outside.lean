/-
  GraphScript.Proofs.Script.Outside — outside of its literals a script has words and numbers only.

  A reader that leaves out literals changes sides at every mark (`Text.outside`): a mark opens a
  literal, and the same mark closes it. A mark of the payload stands twice, so it closes the literal
  and opens it again, and what lies between is never seen. A text is confined if the reader sees
  nothing of it but words of a closed list and numbers, and is on the same side behind it as before
  (`Confined`); confined texts can be put together.

  All that a document adds to a script outside of literals would come by the flags of its groups.
  They are words of the vocabulary of their kind, the mode of a histogram excepted: that is the text
  of the document, whatever it is (`a_histogram_mode_is_written_as_it_is`).

  - `nothing_foreign_outside`
-/
import GraphScript.Proofs.Script.Typed
import GraphScript.Proofs.Script.Translated

namespace GraphScript

open Faults

/-! ## Reading past literals -/

namespace Text

/-- The marks that literals stand between. -/
def marks : List Char := ['"', '\x60']

/-- What a text has outside of its literals, for a reader in a literal of the given mark or in none. -/
def outside : Option Char → List Char → List Char
  | _, [] => []
  | none, c :: cs => if c ∈ marks then outside (some c) cs else c :: outside none cs
  | some mark, c :: cs => if c = mark then outside none cs else outside (some mark) cs

theorem outside_append {w : List Char} (hw : ∀ c ∈ w, c ∉ marks) (r : List Char) :
    outside none (w ++ r) = w ++ outside none r := by
  induction w with
  | nil => rfl
  | cons c w ih =>
    rw [List.cons_append, outside, if_neg (hw c (List.mem_cons_self ..)), List.cons_append,
      ih fun d hd => hw d (List.mem_cons_of_mem _ hd)]

/-- A payload is not seen, with its marks doubled, and neither is the mark that ends it. -/
theorem outside_doubled {mark : Char} (hm : mark ∈ marks) (s r : List Char) :
    outside (some mark) (doubled mark s ++ mark :: r) = outside none r := by
  induction s with
  | nil => rw [doubled, List.nil_append, outside, if_pos rfl]
  | cons c s ih =>
    by_cases hc : c = mark
    · rw [doubled, if_pos hc, List.cons_append, List.cons_append, outside, if_pos rfl, outside, if_pos hm, ih]
    · rw [doubled, if_neg hc, List.cons_append, outside, if_neg hc, ih]

theorem outside_quoted {mark : Char} (hm : mark ∈ marks) (s : String) (r : List Char) :
    outside none ((quoted mark s).toList ++ r) = outside none r := by
  rw [toList_quoted, List.cons_append, List.cons_append, outside, if_pos hm, List.append_assoc, List.singleton_append,
    outside_doubled hm]

end Text

open Text Json.Fields

/-! ## Words of scripts -/

/-- The signs and fixed words of a script. -/
def signs : List String := ["", " ", "  ", "\n", ", ", "; ", ";", ":", ": ", "=", "[", "]", " <- ", "; id: ",
  "\x7b", "\x7d", "\x7b\n", "\x7b \x7d", "table ", "simulation ", "image ", "note", "note ", "folder "]

/-- All that a script may have outside of literals, numbers excepted. -/
def scriptWords : List String :=
  signs ++ Kind.all.map Kind.keyword ++ SmallFlag.all.map SmallFlag.word ++ FlagWord.all.map FlagWord.word
    ++ flagTexts .histogramModeOption ++ partNames ++ axisNames ++ ArrowMode.all.map ArrowMode.script
    ++ Visibility.all.map Visibility.word

/-- No mark has the class of the characters of the text. -/
theorem unmarked_of_class {p : Char → Bool} (hp : marks.all (!p ·) = true) {cs : List Char}
    (hcs : ∀ c ∈ cs, p c = true) : ∀ c ∈ cs, c ∉ marks := by
  intro c hc hm
  have hpc := List.all_eq_true.mp hp c hm
  rw [hcs c hc] at hpc
  exact Bool.false_ne_true hpc

theorem scriptWords_unmarked : ∀ w ∈ scriptWords, ∀ c ∈ w.toList, c ∉ marks := by
  have hword : ∀ {w : String}, (∀ c ∈ w.toList, isWordChar c = true) → ∀ c ∈ w.toList, c ∉ marks :=
    unmarked_of_class (by decide)
  have hall : ∀ w ∈ signs ++ axisNames ++ ArrowMode.all.map ArrowMode.script ++ Visibility.all.map Visibility.word
      ++ SmallFlag.all.map SmallFlag.word, w.toList.all (!marks.contains ·) = true := by decide
  have hfew := fun w hw => unmarked_of_class (p := (!marks.contains ·)) (by decide) (List.all_eq_true.mp (hall w hw))
  intro w hw
  simp only [scriptWords, List.mem_append] at hw
  rcases hw with (((((((hsign | hkind) | hsmall) | hflag) | hmode) | hpart) | haxis) | harrow) | hvisible
  · exact hfew w (by simp only [List.mem_append, hsign, true_or])
  · obtain ⟨k, hk, rfl⟩ := List.mem_map.mp hkind
    exact hword (keyword_isWordChar k hk)
  · exact hfew w (by simp only [List.mem_append, hsmall, or_true])
  · obtain ⟨f, -, rfl⟩ := List.mem_map.mp hflag
    exact hword (Flag.plain_text (Flag.word_plain f) rfl).1
  · obtain ⟨f, hf, hft⟩ := Flag.plain_of_flagTexts hmode
    exact hword (Flag.plain_text hf hft).1
  · exact hword (partNames_words w hpart).1
  · exact hfew w (by simp only [List.mem_append, haxis, true_or, or_true])
  · exact hfew w (by simp only [List.mem_append, harrow, true_or, or_true])
  · exact hfew w (by simp only [List.mem_append, hvisible, true_or, or_true])

theorem sign_mem {w : String} (h : w ∈ signs) : w ∈ scriptWords := by
  simp only [scriptWords, List.mem_append, h, true_or]

theorem keyword_mem (k : Kind) : k.keyword ∈ scriptWords := by
  have h : k.keyword ∈ Kind.all.map Kind.keyword := List.mem_map_of_mem k.mem_all
  simp only [scriptWords, List.mem_append, h, true_or, or_true]

theorem smallFlag_mem (f : SmallFlag) : f.word ∈ scriptWords := by
  have h : f.word ∈ SmallFlag.all.map SmallFlag.word := List.mem_map_of_mem f.mem_all
  simp only [scriptWords, List.mem_append, h, true_or, or_true]

theorem flag_mem {f : Flag} {t : String} (hf : f ∈ Flag.plain) (ht : f.script = .ok t) : t ∈ scriptWords := by
  rcases List.mem_append.mp hf with hf | hf
  · obtain ⟨w, hw, rfl⟩ := List.mem_map.mp hf
    obtain rfl := Except.ok.inj ht
    have h : w.word ∈ FlagWord.all.map FlagWord.word := List.mem_map_of_mem hw
    simp only [scriptWords, List.mem_append, h, true_or, or_true]
  · have h : t ∈ flagTexts .histogramModeOption := by
      simp only [knownModes, List.mem_cons, List.not_mem_nil, or_false] at hf
      rcases hf with rfl | rfl <;> cases ht <;> decide
    simp only [scriptWords, List.mem_append, h, true_or, or_true]

theorem partName_mem {name : String} (h : name ∈ partNames) : name ∈ scriptWords := by
  simp only [scriptWords, List.mem_append, h, true_or, or_true]

theorem axisName_mem {name : String} (h : name ∈ axisNames) : name ∈ scriptWords := by
  simp only [scriptWords, List.mem_append, h, true_or, or_true]

/-- A word of scripts, or the text of a number. -/
def IsVisible (w : String) : Prop := w ∈ scriptWords ∨ ∃ j, Json.numberScript j = .ok w

theorem IsVisible.unmarked {w : String} (h : IsVisible w) : ∀ c ∈ w.toList, c ∉ marks := by
  rcases h with hw | ⟨j, hj⟩
  · exact scriptWords_unmarked w hw
  · exact unmarked_of_class (by decide) (Json.numberScript_numeric hj)

/-! ## Confined texts -/

/-- Outside of its literals the text has words and numbers only, and what follows is seen as if it stood alone. -/
def Confined (t : String) : Prop :=
  ∃ ws : List String, (∀ w ∈ ws, IsVisible w) ∧
    ∀ r, outside none (t.toList ++ r) = ws.flatMap String.toList ++ outside none r

theorem confined_visible {w : String} (h : IsVisible w) : Confined w := by
  refine ⟨[w], List.forall_mem_singleton.mpr h, fun r => ?_⟩
  rw [outside_append h.unmarked, List.flatMap_singleton]

theorem confined_word {w : String} (h : w ∈ scriptWords) : Confined w := confined_visible (.inl h)

theorem confined_sign {w : String} (h : w ∈ signs) : Confined w := confined_word (sign_mem h)

theorem confined_empty : Confined "" := confined_sign (by decide)

theorem confined_number {j : Json} {t : String} (h : j.numberScript = .ok t) : Confined t :=
  confined_visible (.inr ⟨j, h⟩)

theorem confined_quoted {mark : Char} (hm : mark ∈ marks) (s : String) : Confined (quoted mark s) :=
  ⟨[], nofun, fun r => by rw [outside_quoted hm, List.flatMap_nil, List.nil_append]⟩

theorem confined_latex (l : Latex) : Confined l.script := confined_quoted (by decide) _

theorem confined_string (s : String) : Confined (stringScript s) := confined_quoted (by decide) _

theorem confined_stringScript {j : Json} {t : String} (h : j.stringScript = .ok t) : Confined t := by
  obtain ⟨s, -, rfl⟩ := Json.stringScript_eq_ok.mp h
  exact confined_string s

theorem Confined.append {s t : String} (hs : Confined s) (ht : Confined t) : Confined (s ++ t) := by
  obtain ⟨ws, hws, hout⟩ := hs
  obtain ⟨us, hus, hout'⟩ := ht
  refine ⟨ws ++ us, List.forall_mem_append.mpr ⟨hws, hus⟩, fun r => ?_⟩
  rw [String.toList_append, List.append_assoc, hout, hout', List.flatMap_append, List.append_assoc]

theorem confined_joined {separator : String} (hsep : Confined separator) {ts : List String} (h : ∀ t ∈ ts, Confined t) :
    Confined (joined separator ts) := by
  induction ts with
  | nil => exact confined_empty
  | cons t ts ih =>
    have ht := h t (List.mem_cons_self ..)
    have hts := fun u hu => h u (List.mem_cons_of_mem _ hu)
    cases ts with
    | nil => exact ht
    | cons u us => exact (ht.append hsep).append (ih hts)

theorem confined_join {ts : List String} (h : ∀ t ∈ ts, Confined t) : Confined (String.join ts) := by
  induction ts with
  | nil => exact confined_empty
  | cons t ts ih =>
    rw [String.join_cons]
    exact (h t (List.mem_cons_self ..)).append (ih fun u hu => h u (List.mem_cons_of_mem _ hu))

/-- Something that is written in surroundings of its own if it is there. -/
theorem confined_optional {α : Type} {f : α → String} (hf : ∀ a, Confined (f a)) (o : Option α) :
    Confined ((o.map f).getD "") := by
  cases o with
  | none => exact confined_empty
  | some a => exact hf a

theorem confined_mapM {α : Type} {f : α → Except Fault String} {xs : List α} {ts : List String}
    (h : xs.mapM f = .ok ts) (hf : ∀ x ∈ xs, ∀ t, f x = .ok t → Confined t) : ∀ t ∈ ts, Confined t := by
  intro t ht
  obtain ⟨x, hx, hxt⟩ := mem_of_mapM h t ht
  exact hf x hx t hxt

/-! ## Groups -/

theorem confined_interval (i : Interval) : Confined i.script := by
  have hbound : ∀ bound, Confined (boundScript bound) := confined_optional confined_latex
  have hstep : ∀ step : Option Latex, Confined ((step.map (":" ++ Latex.script ·)).getD "") :=
    confined_optional fun l => (confined_sign (by decide)).append (confined_latex l)
  rw [Interval.script_eq]
  exact (((((confined_sign (by decide)).append (hbound _)).append (confined_sign (by decide))).append (hbound _)).append
    (hstep _)).append (confined_sign (by decide))

theorem confined_parameters {ps : List RegressionParameter} {t : String} (h : parametersScript ps = .ok t) :
    Confined t := by
  unfold parametersScript at h
  split at h
  · obtain rfl := Except.ok.inj h
    exact confined_sign (by decide)
  · obtain ⟨ts, hts, rfl⟩ := map_eq_ok.mp h
    refine confined_joined (confined_sign (by decide)) (confined_mapM hts fun p _ t hp => ?_)
    simp only [RegressionParameter.script, bind_eq_ok, pure_eq, Except.ok.injEq] at hp
    obtain ⟨x, hx, rfl⟩ := hp
    exact ((confined_latex _).append (confined_sign (by decide))).append (confined_number hx)

section

variable {indentation : String} (hi : Confined indentation)

include hi

theorem confined_indented : Confined (indented indentation) := hi.append (confined_sign (by decide))

/-- A block closes behind a confined indentation. -/
theorem confined_block {lines : List String} (h : ∀ l ∈ lines, Confined l) : Confined (block indentation lines) := by
  unfold block
  split
  · exact confined_sign (by decide)
  · have hlines := confined_joined (confined_sign (by decide : "\n" ∈ signs)) h
    exact ((((confined_sign (by decide)).append hlines).append (confined_sign (by decide))).append hi).append
      (confined_sign (by decide))

theorem confined_rule (r : ClickableRule) : Confined (r.script indentation) := by
  have hid : ∀ id : Option String, Confined ((id.map ("; id: " ++ stringScript ·)).getD "") :=
    confined_optional fun id => (confined_sign (by decide)).append (confined_string id)
  rw [ClickableRule.script_eq]
  exact (((hi.append (confined_latex _)).append (confined_sign (by decide))).append (confined_latex _)).append (hid _)

theorem confined_rules (rules : List ClickableRule) : Confined (rulesScript indentation rules) := by
  refine confined_block confined_empty ?_
  intro l hl
  obtain ⟨r, -, rfl⟩ := List.mem_map.mp hl
  exact confined_rule (confined_indented hi) r

theorem Special.confined {s : Special} {t : String} (h : s.script indentation = .ok t) : Confined t := by
  cases s with
  | text value => exact confined_stringScript h
  | interval value =>
    obtain rfl := Except.ok.inj h
    exact confined_interval value
  | expression value =>
    obtain rfl := Except.ok.inj h
    exact confined_latex value
  | parameters ps =>
    obtain ⟨x, hx, rfl⟩ := map_eq_ok.mp h
    exact ((confined_sign (by decide)).append (confined_parameters hx)).append (confined_sign (by decide))
  | rules rs =>
    obtain rfl := Except.ok.inj h
    exact confined_rules hi rs

theorem Part.confined {kind : Kind} {p : Part} {t : String} (hp : p.Fits kind) (h : p.script indentation = .ok t) :
    Confined t := by
  cases p with
  | special s => exact Special.confined hi h
  | flag f => exact confined_word (flag_mem hp h)
  | assigned name value =>
    obtain rfl := Except.ok.inj h
    exact ((confined_word (partName_mem hp)).append (confined_sign (by decide))).append (confined_latex value)

theorem OptionGroup.confined {g : OptionGroup} {t : String} (hg : g.Plain) (h : g.script indentation = .ok t) :
    Confined t := by
  obtain ⟨body, ⟨ts, hts, rfl⟩, rfl⟩ := script_eq_ok hg h
  have hall : ∀ t ∈ ts, Confined t := by
    intro t ht
    obtain ⟨p, -, hp⟩ := exists_partner hts t ht
    exact Part.confined hi hp.1 hp.2
  refine (confined_word (keyword_mem g.kind)).append ?_
  split
  · exact confined_sign (by decide)
  · exact (confined_sign (by decide)).append (confined_joined (confined_sign (by decide)) hall)

/-! ## Items -/

omit hi in
theorem confined_flagsBefore (flags : List SmallFlag) : Confined (flagsBefore flags) := by
  refine confined_join ?_
  intro t ht
  obtain ⟨f, -, rfl⟩ := List.mem_map.mp ht
  exact (confined_word (smallFlag_mem f)).append (confined_sign (by decide))

theorem Column.confined {c : Column} {t : String} (hc : c.Plain) (h : c.script indentation = .ok t) : Confined t := by
  simp only [Column.script, bind_eq_ok, pure_eq, Except.ok.injEq] at h
  obtain ⟨options, hoptions, rfl⟩ := h
  have hcells : Confined (cellsScript c.values) := by
    refine ((confined_sign (by decide)).append (confined_joined (confined_sign (by decide)) ?_)).append
      (confined_sign (by decide))
    exact List.forall_mem_map.mpr fun l _ => confined_latex l
  refine ((hi.append (confined_flagsBefore _)).append hcells).append (confined_join (List.forall_mem_map.mpr ?_))
  intro o ho
  refine (confined_sign (by decide)).append (confined_mapM hoptions (fun g hg t ht => ?_) o ho)
  exact OptionGroup.confined hi (hc g hg) ht

theorem Leaf.confined {l : Leaf} {t : String} (hl : l.Regular) (h : l.script indentation = .ok t) : Confined t := by
  cases l with
  | table columns =>
    simp only [Leaf.script, bind_eq_ok, pure_eq, Except.ok.injEq] at h
    obtain ⟨ts, hts, rfl⟩ := h
    refine (confined_sign (by decide)).append (confined_block hi (confined_mapM hts fun c hc t ht => ?_))
    exact Column.confined (confined_indented hi) (hl c hc) ht
  | simulation rules =>
    obtain rfl := Except.ok.inj h
    exact (confined_sign (by decide)).append (confined_rules hi rules)
  | expression latex =>
    obtain rfl := Except.ok.inj h
    exact confined_optional confined_latex latex
  | image url =>
    obtain ⟨x, hx, rfl⟩ := map_eq_ok.mp h
    exact (confined_sign (by decide)).append (confined_stringScript hx)
  | note text =>
    obtain ⟨o, ho, rfl⟩ := Leaf.note_eq_ok h
    refine (confined_sign (by decide)).append ?_
    cases o with
    | none => exact confined_empty
    | some x =>
      obtain ⟨j, hj⟩ := present_text ho
      exact (confined_sign (by decide)).append (confined_stringScript hj)

theorem confined_itemLayout {kind : Kind} {flags : List SmallFlag} {affix : String} {groups : List String}
    (ha : Confined affix) (hg : ∀ g ∈ groups, Confined g) :
    Confined (itemLayout kind indentation flags affix groups) := by
  have hwords : Confined (joined " " (flags.map (·.word))) := by
    refine confined_joined (confined_sign (by decide)) (List.forall_mem_map.mpr fun f _ => ?_)
    exact confined_word (smallFlag_mem f)
  have hoptions : Confined (joined " " (groups.map (· ++ ";"))) := by
    refine confined_joined (confined_sign (by decide)) (List.forall_mem_map.mpr fun g hgm => ?_)
    exact (hg g hgm).append (confined_sign (by decide))
  have hhead : Confined (if affix = "" then joined " " (flags.map (·.word)) else flagsBefore flags ++ affix) := by
    split
    · exact hwords
    · exact (confined_flagsBefore _).append ha
  have hgap : ∀ empty : Prop, ∀ [Decidable empty], Confined (if empty then "" else " ") := by
    intro empty _
    split
    · exact confined_empty
    · exact confined_sign (by decide)
  unfold itemLayout
  refine hi.append ?_
  split
  · exact (hoptions.append (hgap _)).append hhead
  · exact (hhead.append (hgap _)).append hoptions

theorem Item.confined {α : Type} {regular : α → Prop} {kind : α → Kind} {script : α → Except Fault String} {i : Item α}
    {t : String} (hr : i.Regular regular) (hs : ∀ a t, regular a → script a = .ok t → Confined t)
    (h : i.scriptWith kind script indentation = .ok t) : Confined t := by
  simp only [Item.scriptWith, bind_eq_ok, pure_eq, Except.ok.injEq] at h
  obtain ⟨a, ha, groups, hgroups, rfl⟩ := h
  refine confined_itemLayout hi (hs _ _ hr.affix ha) (confined_mapM hgroups fun g hg t ht => ?_)
  exact OptionGroup.confined hi (hr.plain g hg) ht

theorem Folder.confined {f : Folder} {t : String} (hf : f.Regular) (h : f.script indentation = .ok t) : Confined t := by
  obtain ⟨o, ts, ho, hts, rfl⟩ := Folder.script_eq_ok h
  have htitle : Confined ((o.map (· ++ " ")).getD "") := by
    cases o with
    | none => exact confined_empty
    | some x =>
      obtain ⟨j, hj⟩ := present_text ho
      exact (confined_stringScript hj).append (confined_sign (by decide))
  have hdeep := confined_indented hi
  refine ((confined_sign (by decide)).append htitle).append (confined_block confined_empty ?_)
  exact confined_mapM hts fun c hc t ht => Item.confined hdeep (hf c hc) (fun _ _ => Leaf.confined hdeep) ht

theorem Affix.confined {a : Affix} {t : String} (ha : a.Regular) (h : a.script indentation = .ok t) : Confined t := by
  cases a with
  | leaf l => exact Leaf.confined hi ha h
  | folder f => exact Folder.confined hi ha h

end

/-! ## Settings -/

theorem confined_axes {kind : Kind} {parts : List (String × Option String)} {t : String}
    (h : axisScript kind parts = .ok t) (hn : ∀ p ∈ parts, p.1 ∈ axisNames) (hp : ∀ p ∈ parts, ∀ a ∈ p.2, Confined a) :
    Confined t := by
  obtain rfl := axisScript_eq_ok h
  refine confined_joined (confined_sign (by decide)) (List.forall_mem_map.mpr fun p hpm => ?_)
  obtain ⟨q, hq, hqp⟩ := List.mem_filterMap.mp hpm
  obtain ⟨a, ha, rfl⟩ := Option.map_eq_some_iff.mp hqp
  exact ((confined_word (axisName_mem (hn q hq))).append (confined_sign (by decide))).append (hp q hq a ha)

theorem confined_axisParts {γ : Type} {read : γ → Except Fault (Option String)} {kind : Kind} {x y : γ} {t : String}
    (hread : ∀ v a, read v = .ok (some a) → Confined a) (h : (axisParts read x y >>= axisScript kind) = .ok t) :
    Confined t := by
  simp only [axisParts, bind_eq_ok, pure_eq, Except.ok.injEq] at h
  obtain ⟨_, ⟨tx, hx, ty, hy, rfl⟩, h⟩ := h
  refine confined_axes h (by simp [axisNames]) ?_
  simp only [List.forall_mem_cons]
  exact ⟨fun a ha => hread x a (ha ▸ hx), fun a ha => hread y a (ha ▸ hy), List.forall_mem_nil _⟩

/-- Axes that are each shown by one of some words. -/
theorem confined_known {γ : Type} {f : γ → String} (hf : ∀ v, f v ∈ scriptWords) {kind : Kind}
    (parts : List (String × Option γ)) {t : String} (hn : ∀ p ∈ parts, p.1 ∈ axisNames)
    (h : axisScript kind (parts.map fun p => (p.1, p.2.map f)) = .ok t) : Confined t := by
  refine confined_axes h (List.forall_mem_map.mpr hn) (List.forall_mem_map.mpr fun p _ a ha => ?_)
  obtain ⟨v, -, rfl⟩ := Option.map_eq_some_iff.mp ha
  exact confined_word (hf v)

theorem Setting.confined {s : Setting} {t : String} (hs : s.Plain) (h : s.script = .ok t) : Confined t := by
  obtain ⟨body, hbody, rfl⟩ := map_eq_ok.mp h
  refine ((confined_word (keyword_mem _)).append (confined_sign (by decide))).append ?_
  have hvisible : ∀ v : Visibility, v.word ∈ scriptWords := fun v => by cases v <;> decide
  have hnumber : ∀ (v : Json) a, v.present Json.numberScript = .ok (some a) → Confined a := fun v a ha =>
    (present_text ha).elim fun _ => confined_number
  cases s with
  | seed value => exact confined_stringScript hbody
  | flags words =>
    obtain ⟨ts, hts, rfl⟩ := map_eq_ok.mp hbody
    refine confined_joined (confined_sign (by decide)) (confined_mapM hts fun f hf t ht => ?_)
    exact confined_word (flag_mem (hs f hf) ht)
  | viewport x y =>
    refine confined_axisParts (fun v a ha => ?_) hbody
    obtain ⟨i, hi⟩ := intervalPart_text v a ha
    simp only [NumberInterval.script, bind_eq_ok, pure_eq, Except.ok.injEq] at hi
    obtain ⟨start, hstart, stop, hstop, rfl⟩ := hi
    exact ((((confined_sign (by decide)).append (confined_number hstart)).append (confined_sign (by decide))).append
      (confined_number hstop)).append (confined_sign (by decide))
  | minorSubdivisions x y | axisSteps x y => exact confined_axisParts hnumber hbody
  | axisLabels x y =>
    refine confined_axisParts (fun v a ha => ?_) hbody
    exact (present_text ha).elim fun _ => confined_stringScript
  | axisArrows x y =>
    have harrow : ∀ m : ArrowMode, m.script ∈ scriptWords := fun m => by cases m <;> decide
    exact confined_known harrow [("x", x), ("y", y)] (by simp [axisNames]) hbody
  | axes x y => exact confined_known hvisible [("x", x), ("y", y)] (by simp [axisNames]) hbody
  | axisNumbers x y polar =>
    exact confined_known hvisible [("x", x), ("y", y), ("polar", polar)] (by simp [axisNames]) hbody

/-! ## Programs -/

theorem Program.confined {p : Program} {t : String} (hp : p.Regular) (h : p.script = .ok t) : Confined t := by
  obtain ⟨ts, hts, rfl⟩ := map_eq_ok.mp h
  refine confined_joined (confined_sign (by decide)) (confined_mapM hts fun l hl t ht => ?_)
  cases l with
  | setting s => exact Setting.confined (hp _ hl) ht
  | item i => exact Item.confined confined_empty (hp _ hl) (fun _ _ => Affix.confined confined_empty) ht

/-! ## Flags -/

/-- The flags of a group are words of its kind, none of them twice. -/
def OptionGroup.InVocabulary (g : OptionGroup) : Prop :=
  ∃ texts, g.flags.mapM Flag.script = .ok texts ∧ texts.Nodup ∧ ∀ t ∈ texts, t ∈ flagTexts g.kind

theorem vocabulary_nodup (k : Kind) : ((vocabulary k).map FlagWord.word).Nodup := by
  cases k <;> decide

theorem OptionGroup.Worded.inVocabulary {g : OptionGroup} (h : g.Worded) (hk : g.kind ≠ .histogramModeOption) :
    g.InVocabulary := by
  obtain ⟨ws, hws, hflags⟩ := List.sublist_map_iff.mp (h hk)
  have htexts := hws.map FlagWord.word
  refine ⟨ws.map FlagWord.word, ?_, (vocabulary_nodup g.kind).sublist htexts, fun t ht => ?_⟩
  · rw [hflags, List.mapM_map]
    exact mapM_ok (fun _ => rfl) ws
  · rw [flagTexts, if_neg hk]
    exact htexts.subset ht

/-- The modes of a histogram that have a word or no group at all. -/
def histogramModes : List Json := [.null, .str "count", .str "relative", .str "density"]

theorem inVocabulary_of_mode {mode : Json} (hn : mode ≠ .null) (hc : mode.is "count" = false) :
    (OptionGroup.histogramMode [.given mode]).InVocabulary ↔ mode ∈ histogramModes := by
  constructor
  · intro h
    obtain ⟨texts, hscript, -, htexts⟩ := h
    obtain ⟨t, ht, hmode⟩ := result_of_mapM hscript (.given mode) (List.mem_singleton.mpr rfl)
    cases mode with
    | str s =>
      obtain rfl := Except.ok.inj hmode
      rcases List.mem_cons.mp (htexts s ht) with rfl | hs
      · decide
      · obtain rfl := List.mem_singleton.mp hs
        decide
    | _ => cases hmode
  · intro h
    simp only [histogramModes, List.mem_cons, List.not_mem_nil, or_false] at h
    rcases h with rfl | rfl | rfl | rfl
    · exact absurd rfl hn
    · cases hc
    · exact ⟨["relative"], rfl, by decide, by decide⟩
    · exact ⟨["density"], rfl, by decide, by decide⟩

theorem Column.ofJson_inVocabulary {j : Json} {c : Column} (h : Column.ofJson j = .ok c) :
    ∀ g ∈ c.options, g.InVocabulary := by
  have hkinds : .histogramModeOption ∉ stylingKinds := by decide
  obtain ⟨fs, -, hgiven⟩ := Column.ofJson_given h
  intro g hg
  obtain ⟨k, hk, hgives⟩ := hgiven g hg
  exact hgives.worded.inVocabulary fun hmode => hkinds (hmode ▸ hgives.kind_eq ▸ hk)

theorem mode_of_inVocabulary {fs : Json.Fields} {gs : List OptionGroup} (h : fs.expressionGroups = .ok gs)
    (hall : ∀ g ∈ gs, g.InVocabulary) : (fs.get "vizProps").valueOf "histogramMode" ∈ histogramModes := by
  by_contra hm
  have hn : (fs.get "vizProps").valueOf "histogramMode" ≠ .null := by
    intro he
    rw [he] at hm
    exact hm (by decide)
  have hc : ((fs.get "vizProps").valueOf "histogramMode").is "count" = false := by
    rw [← Bool.not_eq_true]
    intro he
    rw [Json.is_iff.mp he] at hm
    exact hm (by decide)
  exact hm ((inVocabulary_of_mode hn hc).mp (hall _ (histogramMode_mem h hn hc)))

/-- Only the mode of a histogram is a value of the document. -/
theorem Item.ofJson_inVocabulary {j : Json} {t : Item Affix} (h : Item.ofJson j = .ok t) :
    ∀ g ∈ t.groupsWith Affix.groups, g.InVocabulary ∨
      ItemKind.ofJson? (j.valueOf "type") = some .expression ∧
        (j.valueOf "vizProps").valueOf "histogramMode" ∉ histogramModes ∧
        g = .histogramMode [.given ((j.valueOf "vizProps").valueOf "histogramMode")] := by
  intro g hg
  rcases Item.ofJson_groups h g hg with hg | ⟨_, c, hc, hgc⟩
  · obtain ⟨fs, id, kind, rfl, hk, hgiven⟩ := Item.ofJson_given h
    rcases hgiven g hg with rfl | ⟨k, hkm, hgives⟩
    · exact .inl ⟨[], rfl, List.nodup_nil, nofun⟩
    · by_cases hmode : k = .histogramModeOption
      · have hexpression : ∀ kind : ItemKind, .histogramModeOption ∈ stylingKinds ++ kind.ownKinds →
            kind = .expression := by
          intro kind
          cases kind <;> decide
        obtain rfl := hexpression kind (hmode ▸ hkm)
        cases hgives with
        | histogramMode hn hc =>
          by_cases hm : (fs.get "vizProps").valueOf "histogramMode" ∈ histogramModes
          · exact .inl ((inVocabulary_of_mode hn hc).mpr hm)
          · exact .inr ⟨hk, hm, rfl⟩
        | _ => cases hmode
      · exact .inl (hgives.worded.inVocabulary fun he => hmode (hgives.kind_eq ▸ he))
  · exact .inl (Column.ofJson_inVocabulary hc g hgc)

/-- All groups of a column have flags of their vocabularies, none of them twice, and so have all groups of an item
    unless it is an expression with another mode for its histogram, which is then the flag of that group. Where no
    other mode stands, a script has nothing outside of its literals but words of the closed list and numbers. -/
theorem nothing_foreign_outside (j : Json) :
    (∀ c : Column, Column.ofJson j = .ok c → ∀ g ∈ c.options, g.InVocabulary) ∧
    (∀ t : Item Affix, Item.ofJson j = .ok t →
      (∀ g ∈ t.groupsWith Affix.groups, g.InVocabulary ∨
        g = .histogramMode [.given ((j.valueOf "vizProps").valueOf "histogramMode")]) ∧
      ((∀ g ∈ t.groupsWith Affix.groups, g.InVocabulary) ↔
        (ItemKind.ofJson? (j.valueOf "type") = some .expression →
          (j.valueOf "vizProps").valueOf "histogramMode" ∈ histogramModes))) ∧
    (∀ (graphFlags : Bool) (p : Program) (text : String),
      (translate graphFlags j).result = .ok p → (∀ f ∈ p.histogramFlags, f ∈ knownModes) → p.script = .ok text →
      ∃ ws : List String, (∀ w ∈ ws, IsVisible w) ∧ outside none text.toList = ws.flatMap String.toList) := by
  refine ⟨fun c => Column.ofJson_inVocabulary, fun t h => ⟨fun g hg => ?_, ?_⟩, ?_⟩
  · exact (Item.ofJson_inVocabulary h g hg).imp_right fun hmode => hmode.2.2
  · constructor
    · intro hall hk
      obtain ⟨fs, id, styling, kind, affix, groups, rfl, -, hk', -, hg, rfl⟩ := Item.ofJson_eq_ok h
      obtain rfl : .expression = kind := Option.some.inj (hk.symm.trans hk')
      refine mode_of_inVocabulary hg fun g hgm => hall g (List.mem_append_left _ ?_)
      exact List.mem_cons_of_mem _ (List.mem_append_right styling hgm)
    · intro hmode g hg
      rcases Item.ofJson_inVocabulary h g hg with hin | ⟨hk, hm, -⟩
      · exact hin
      · exact absurd (hmode hk) hm
  · intro graphFlags p text hp hm ht
    obtain ⟨ws, hws, hout⟩ := Program.confined (translate_regular hp hm) ht
    refine ⟨ws, hws, ?_⟩
    have h := hout []
    rwa [List.append_nil, outside, List.append_nil] at h

/-- An id that would be a line of its own stays within its literal. -/
theorem outside_of_an_id_with_a_quote :
    let cells := Json.obj [("points", .bool true), ("pointStyle", .str "OPEN")]
    let c : Column := ⟨[], none, [], [.points [.word .shown, .word .pointOpen] none none]⟩
    let j := Json.obj [("type", .str "expression"), ("id", .str "\"; secret"), ("latex", .str "y"),
      ("vizProps", .obj [("histogramMode", .str "relative")])]
    let t : Item Affix := ⟨.leaf (.expression (some ⟨"y"⟩)), [],
      [.id "\"; secret", .histogramMode [.given (.str "relative")]]⟩
    let state := Json.obj [("version", .int 8), ("graph", .obj [("viewport", .obj [("xmin", .int 0), ("xmax", .int 1),
      ("ymin", .int 0), ("ymax", .int 1)])]), ("expressions", .obj [("list", .arr [j])])]
    let p : Program := ⟨[.setting (.viewport (some ⟨.int 0, .int 1⟩) (some ⟨.int 0, .int 1⟩)), .item t]⟩
    let text := "viewport: x [0:1], y [0:1]\n\x60y\x60 id: \"\"\"; secret\"; histogram mode: relative;"
    (Column.ofJson cells = .ok c ∧ ∀ g ∈ c.options, g.InVocabulary) ∧
    (Item.ofJson j = .ok t ∧ ∀ g ∈ t.groupsWith Affix.groups, g.InVocabulary) ∧
    ((translate false state).result = .ok p ∧ p.script = .ok text ∧
      outside none text.toList = "viewport: x [0:1], y [0:1]\n id: ; histogram mode: relative;".toList ∧
      ∃ ws : List String, (∀ w ∈ ws, IsVisible w) ∧ outside none text.toList = ws.flatMap String.toList) := by
  intro cells c j t state p text
  have hc : Column.ofJson cells = .ok c := by decide +kernel
  have ht : Item.ofJson j = .ok t := by decide +kernel
  have hp : (translate false state).result = .ok p := by decide +kernel
  have htext : p.script = .ok text := by
    dsimp only [p, t, text]
    decide
  have hmode : (j.valueOf "vizProps").valueOf "histogramMode" ∈ histogramModes := by decide +kernel
  refine ⟨⟨hc, (nothing_foreign_outside cells).1 c hc⟩, ⟨ht, ?_⟩, hp, htext, by decide +kernel, ?_⟩
  · exact ((nothing_foreign_outside j).2.1 t ht).2.mpr fun _ => hmode
  · exact (nothing_foreign_outside state).2.2 false p text hp (by decide) htext

/-- Any text can be the mode of a histogram, and it stands outside of every literal. -/
theorem a_histogram_mode_is_written_as_it_is :
    let j := Json.obj [("type", .str "expression"), ("id", .str "e"),
      ("vizProps", .obj [("histogramMode", .str "relative; secret")])]
    let g := OptionGroup.histogramMode [.given (.str "relative; secret")]
    Item.ofJson j = .ok ⟨.leaf (.expression (some ⟨""⟩)), [], [.id "e", g]⟩ ∧ ¬ g.InVocabulary ∧
      g.script "" = .ok "histogram mode: relative; secret" ∧
      outside none "histogram mode: relative; secret".toList = "histogram mode: relative; secret".toList := by
  intro j g
  refine ⟨by decide +kernel, ?_, by decide, by decide⟩
  have hmode : Json.str "relative; secret" ∉ histogramModes := by decide
  have hn : Json.str "relative; secret" ≠ .null := nofun
  exact fun h => hmode ((inVocabulary_of_mode hn rfl).mp h)

end GraphScript
