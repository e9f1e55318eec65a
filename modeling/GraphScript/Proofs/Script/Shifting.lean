/-
  GraphScript.Proofs.Script.Shifting — what an indentation does to the text of an item.

  An indentation comes into the text of an item in front of it, in front of the lines of its blocks,
  and in front of the brace of a table; other blocks close in the first column. So the text with an
  indentation is the text without it shifted, with the braces left where they are, and for a table
  with its brace shifted too (`itemScript_shifted`). An item of a text with a line break inside a
  literal has another physical line that nothing is put in front of, so no text of the item may have
  one (`Unbroken`).

  Both conventions on braces hold at once only where tables and columns have no blocks of rules
  (`Item.Shiftable`).
-/
import GraphScript.Proofs.Script.Lines
import GraphScript.Proofs.Text.Shifting

namespace GraphScript

open Faults Text

/-! ## The texts of an item -/

def Json.texts : Json → List String
  | .str s => [s]
  | _ => []

def Interval.texts (i : Interval) : List String := ([i.min, i.max, i.step].filterMap id).map Latex.text

def ClickableRule.texts (r : ClickableRule) : List String := r.id.toList ++ [r.assignment.text, r.expression.text]

def Special.texts : Special → List String
  | .text value => value.texts
  | .interval value => value.texts
  | .expression value => [value.text]
  | .parameters ps => ps.map (·.parameter.text)
  | .rules rs => rs.flatMap ClickableRule.texts

/-- The words of flags are no texts, values given for them are. -/
def Part.texts : Part → List String
  | .special s => s.texts
  | .flag (.word _) => []
  | .flag (.given value) => value.texts
  | .assigned _ value => [value.text]

def OptionGroup.texts (g : OptionGroup) : List String := g.parts.flatMap Part.texts

def Column.texts (c : Column) : List String := c.values.map Latex.text ++ c.options.flatMap OptionGroup.texts

def Leaf.texts : Leaf → List String
  | .table columns => columns.flatMap Column.texts
  | .simulation rules => rules.flatMap ClickableRule.texts
  | .expression latex => latex.toList.map Latex.text
  | .image url => url.texts
  | .note text => text.texts

def Item.textsWith {α : Type} (affix : α → List String) (i : Item α) : List String :=
  affix i.affix ++ i.options.flatMap OptionGroup.texts

def Affix.texts : Affix → List String
  | .leaf l => l.texts
  | .folder f => f.title.texts ++ f.children.flatMap (Item.textsWith Leaf.texts)

/-- None of the texts has a line break. -/
def Unbroken (texts : List String) : Prop := ∀ t ∈ texts, '\n' ∉ t.toList

section

variable {α : Type}

@[simp] theorem unbroken_append {ts us : List String} : Unbroken (ts ++ us) ↔ Unbroken ts ∧ Unbroken us :=
  List.forall_mem_append

@[simp] theorem unbroken_cons {t : String} {ts : List String} :
    Unbroken (t :: ts) ↔ '\n' ∉ t.toList ∧ Unbroken ts := List.forall_mem_cons

@[simp] theorem unbroken_nil : Unbroken [] := nofun

@[simp] theorem unbroken_map {f : α → String} {xs : List α} : Unbroken (xs.map f) ↔ ∀ x ∈ xs, '\n' ∉ (f x).toList :=
  List.forall_mem_map

@[simp] theorem unbroken_flatMap {f : α → List String} {xs : List α} :
    Unbroken (xs.flatMap f) ↔ ∀ x ∈ xs, Unbroken (f x) := by
  simp only [Unbroken, List.mem_flatMap]
  exact ⟨fun h x hx t ht => h t ⟨x, hx, ht⟩, fun h t ⟨x, hx, ht⟩ => h x hx t ht⟩

end

/-! ## Words and literals -/

variable {stays : Bool} {ind base : String}

theorem moves_word {w : String} (h : w.toList.all (· != '\n') = true) : Moves stays ind w w :=
  moves_of_unbroken fun hc => by simpa using List.all_eq_true.mp h _ hc

theorem moves_of_class {p : Char → Bool} (hp : p '\n' = false) {w : String} (h : ∀ c ∈ w.toList, p c = true) :
    Moves stays ind w w :=
  moves_of_unbroken fun hc => by simpa [hp] using h _ hc

theorem mem_doubled {mark c : Char} {s : List Char} (h : c ∈ doubled mark s) : c ∈ s := by
  induction s with
  | nil => exact h
  | cons d s ih =>
    rw [doubled] at h
    split at h
    · rename_i hd
      simp only [List.mem_cons] at h ⊢
      rcases h with h | h | h
      · exact .inl (h.trans hd.symm)
      · exact .inl (h.trans hd.symm)
      · exact .inr (ih h)
    · exact (List.mem_cons.mp h).elim (fun h => List.mem_cons.mpr (.inl h)) fun h => List.mem_cons_of_mem _ (ih h)

theorem moves_quoted {mark : Char} (hm : '\n' ≠ mark) {s : String} (hs : '\n' ∉ s.toList) :
    Moves stays ind (quoted mark s) (quoted mark s) := by
  refine moves_of_unbroken ?_
  rw [toList_quoted, List.mem_append, List.mem_cons, List.mem_singleton]
  rintro ((h | h) | h)
  · exact hm h
  · exact hs (mem_doubled h)
  · exact hm h

theorem moves_latex {l : Latex} (h : '\n' ∉ l.text.toList) : Moves stays ind l.script l.script :=
  moves_quoted (by decide) h

theorem moves_string {s : String} (h : '\n' ∉ s.toList) : Moves stays ind (stringScript s) (stringScript s) :=
  moves_quoted (by decide) h

theorem moves_stringScript {value : Json} (h : Unbroken value.texts) :
    Ensures (fun t => Moves stays ind t t) value.stringScript := by
  intro t ht
  obtain ⟨s, rfl, rfl⟩ := Json.stringScript_eq_ok.mp ht
  exact moves_string (unbroken_cons.mp h).1

theorem unbroken_orNull {value : Json} (h : Unbroken value.texts) : Unbroken value.orNull.texts := by
  unfold Json.orNull
  split
  · exact h
  · exact unbroken_nil

theorem moves_present {value : Json} {o : Option String} (h : Unbroken value.texts)
    (ho : value.present Json.stringScript = .ok o) : ∀ t ∈ o, Moves stays ind t t := by
  intro t ht
  rcases Json.present_eq_ok.mp ho with ⟨-, rfl⟩ | ⟨-, x, hx, rfl⟩
  · cases ht
  · exact moves_stringScript h t (Option.some.inj ht ▸ hx)

theorem moves_optional {α : Type} {f : α → String} {o : Option α} (h : ∀ a ∈ o, Moves stays ind (f a) (f a)) :
    Moves stays ind ((o.map f).getD "") ((o.map f).getD "") := by
  cases o with
  | none => exact moves_word (w := "") (by decide)
  | some a => exact h a rfl

/-- What stands between two texts where both are there. -/
theorem moves_between {separator : String} (hsep : '\n' ∉ separator.toList) {s s' t t' : String}
    (hs : Moves stays ind s s') (ht : Moves stays ind t t') :
    Moves stays ind (if s = "" ∨ t = "" then "" else separator) (if s' = "" ∨ t' = "" then "" else separator) := by
  simp only [hs.eq_empty_iff, ht.eq_empty_iff]
  split
  · exact moves_word (by decide)
  · exact moves_of_unbroken hsep

/-- What may be missing behind a colon. -/
theorem moves_behind_colon {t u : String} (h : Moves stays ind t u) :
    Moves stays ind (if t = "" then ":" else ": " ++ t) (if u = "" then ":" else ": " ++ u) := by
  simp only [h.eq_empty_iff]
  split
  · exact moves_word (by decide)
  · exact (moves_word (by decide)).append h

theorem moves_interval {i : Interval} (h : Unbroken i.texts) : Moves stays ind i.script i.script := by
  have hlatex : ∀ l : Latex, l ∈ [i.min, i.max, i.step].filterMap id → Moves stays ind l.script l.script :=
    fun l hl => moves_latex (unbroken_map.mp h l hl)
  have hmem : ∀ {o : Option Latex} {l : Latex}, o ∈ [i.min, i.max, i.step] → l ∈ o →
      l ∈ [i.min, i.max, i.step].filterMap id := fun ho hl => List.mem_filterMap.mpr ⟨_, ho, hl⟩
  have hmin : Moves stays ind (boundScript i.min) (boundScript i.min) :=
    moves_optional fun l hl => hlatex l (hmem (by simp) hl)
  have hmax : Moves stays ind (boundScript i.max) (boundScript i.max) :=
    moves_optional fun l hl => hlatex l (hmem (by simp) hl)
  have hcolon : Moves stays ind ":" ":" := moves_word (by decide)
  rw [Interval.script_eq]
  exact ((((moves_word (by decide)).append hmin).append hcolon).append hmax).append
    (moves_optional fun l hl => hcolon.append (hlatex l (hmem (by simp) hl))) |>.append (moves_word (by decide))

theorem moves_parameters {ps : List RegressionParameter} (h : Unbroken (ps.map (·.parameter.text))) :
    Ensures (fun t => Moves stays ind t t) (parametersScript ps) := by
  intro t ht
  unfold parametersScript at ht
  split at ht
  · obtain rfl := Except.ok.inj ht
    exact moves_word (by decide)
  · obtain ⟨ts, hts, rfl⟩ := map_eq_ok.mp ht
    refine moves_joined (by decide) (List.forall₂_same.mpr fun t ht => ?_)
    obtain ⟨p, hp, hpt⟩ := mem_of_mapM hts t ht
    simp only [RegressionParameter.script, bind_eq_ok, pure_eq, Except.ok.injEq] at hpt
    obtain ⟨x, hx, rfl⟩ := hpt
    have hnumber : Moves stays ind x x := moves_of_class (by decide) (Json.numberScript_numeric hx)
    exact ((moves_latex (unbroken_map.mp h p hp)).append (moves_word (by decide))).append hnumber

/-! ## Blocks -/

theorem moves_base (hb : Blanks base) : Moves stays ind base base :=
  moves_of_unbroken fun hc => absurd (hb _ hc) (by decide)

/-- A line that stands further in than what holds it goes in with it. -/
theorem moves_deeper (hb : Blanks base) {t u : String} (h : Moves stays ind t u) :
    MovesDown stays ind (indented base ++ t) (indented (ind ++ base) ++ u) := by
  obtain ⟨r, hr⟩ := hb.indented_cons
  have hdeep := ((moves_base hb.indented).append h).behind_break fun r' => by
    rw [String.toList_append, hr, margin, if_neg (by simp)]
  rwa [← String.append_assoc, indented, ← String.append_assoc, ← indented] at hdeep

theorem moves_block {closing closing' : String} {ts us : List String} (h : List.Forall₂ (MovesDown stays ind) ts us)
    (hclosing : MovesDown stays ind (closing ++ "\x7d") (closing' ++ "\x7d")) :
    Moves stays ind (block closing ts) (block closing' us) := by
  have hcons : ∀ (closing t : String) (ts : List String), block closing (t :: ts) =
      "\x7b" ++ String.join ((t :: ts).map ("\n" ++ ·)) ++ ("\n" ++ (closing ++ "\x7d")) := fun closing t ts => by
    rw [← String.toList_inj, toList_block_cons]
    simp
  cases h with
  | nil => exact moves_word (w := "\x7b \x7d") (by decide)
  | cons ht hts =>
    rw [hcons, hcons]
    refine ((moves_word (by decide)).append (moves_join ?_)).append hclosing
    exact List.forall₂_map_left_iff.mpr (List.forall₂_map_right_iff.mpr (.cons ht hts))

theorem moves_rules (hb : Blanks base) {rs : List ClickableRule} (h : Unbroken (rs.flatMap ClickableRule.texts)) :
    Moves true ind (rulesScript base rs) (rulesScript (ind ++ base) rs) := by
  refine moves_block ?_ brace_stays
  refine List.forall₂_map_left_iff.mpr (List.forall₂_map_right_iff.mpr (List.forall₂_same.mpr fun r hr => ?_))
  have htexts := unbroken_flatMap.mp h r hr
  simp only [ClickableRule.texts, unbroken_append, unbroken_cons] at htexts
  obtain ⟨hid, hassignment, hexpression, -⟩ := htexts
  have hend : Moves true ind ((r.id.map ("; id: " ++ stringScript ·)).getD "")
      ((r.id.map ("; id: " ++ stringScript ·)).getD "") :=
    moves_optional fun id hi => (moves_word (by decide)).append (moves_string (hid id (Option.mem_toList.mpr hi)))
  have hrule := moves_deeper hb
    ((((moves_latex hassignment).append (moves_word (by decide : " <- ".toList.all (· != '\n') = true))).append
      (moves_latex hexpression)).append hend)
  simpa only [ClickableRule.script_eq, String.append_assoc] using hrule

/-! ## Groups -/

/-- A block of rules closes in the first column, so braces must stay where there is one. -/
def OptionGroup.Shiftable (stays : Bool) (g : OptionGroup) : Prop := g.kind = .clickableRulesOption → stays = true

theorem special_moves (hb : Blanks base) {s : Special} (h : Unbroken s.texts)
    (hrules : ∀ rs, s = .rules rs → stays = true) :
    Related (Moves stays ind) (s.script base) (s.script (ind ++ base)) := by
  cases s with
  | text value => exact .of_ensures (moves_stringScript h)
  | interval value => exact .ok (moves_interval h)
  | expression value => exact .ok (moves_latex (unbroken_cons.mp h).1)
  | parameters ps =>
    refine .of_ensures (ensures_map.mpr fun t ht => ?_)
    exact ((moves_word (by decide)).append (moves_parameters h t ht)).append (moves_word (by decide))
  | rules rs =>
    obtain rfl := hrules rs rfl
    exact .ok (moves_rules hb h)

namespace OptionGroup

theorem special_eq (indentation : String) (g : OptionGroup) :
    g.special indentation = (g.first?.map (Special.script indentation)).getD (.ok "") := by
  have hvalue : ∀ value : Json, (value.present Json.stringScript).map (·.getD "") =
      ((if value.isNull then none else some (Special.text value)).map (Special.script indentation)).getD (.ok "") := by
    intro value
    unfold Json.present
    split
    · rfl
    · simp only [Option.map_some, Option.getD_some, Special.script]
      cases value.stringScript <;> rfl
  cases g with
  | color value _ | label value _ _ _ => exact hvalue value
  | slider value _ _ | cdf value _ => cases value <;> rfl
  | _ => rfl

variable {g : OptionGroup}

theorem kind_of_rules {rs : List ClickableRule} (h : g.first? = some (.rules rs)) : g.kind = .clickableRulesOption := by
  cases g with
  | clickableRules _ _ => rfl
  | color value _ | label value _ _ _ => cases hv : value.isNull <;> simp [first?, hv] at h
  | slider value _ _ | cdf value _ => cases value <;> simp [first?] at h
  | _ => simp [first?] at h

theorem unbroken_texts : Unbroken g.texts ↔ (∀ s, g.first? = some s → Unbroken s.texts) ∧
    (∀ f ∈ g.flags, Unbroken (Part.flag f).texts) ∧
    ∀ p ∈ present g.assignments, '\n' ∉ p.2.text.toList := by
  simp only [texts, parts, List.append_assoc, unbroken_flatMap, List.forall_mem_append, List.forall_mem_map, Part.texts,
    unbroken_cons, unbroken_nil, and_true, Option.mem_toList]

theorem moves (hb : Blanks base) (hg : g.Shiftable stays) (h : Unbroken g.texts) :
    Related (Moves stays ind) (g.script base) (g.script (ind ++ base)) := by
  obtain ⟨hfirst, hflags, hassigned⟩ := unbroken_texts.mp h
  have hspecial : Related (Moves stays ind) (g.special base) (g.special (ind ++ base)) := by
    rw [special_eq, special_eq]
    cases hs : g.first? with
    | none => exact .ok (moves_word (w := "") (by decide))
    | some s => exact special_moves hb (hfirst s hs) fun rs e => hg (kind_of_rules (e ▸ hs))
  have hflag : ∀ f ∈ g.flags, Ensures (fun t => Moves stays ind t t) f.script := by
    intro f hf t ht
    cases f with
    | word w =>
      obtain rfl := Except.ok.inj ht
      exact moves_of_class (by decide) (Flag.plain_text (Flag.word_plain w) rfl).1
    | given value =>
      cases value with
      | str s =>
        obtain rfl := Except.ok.inj ht
        exact moves_of_unbroken (unbroken_cons.mp (hflags _ hf)).1
      | _ => cases ht
  have hnamed : ∀ t ∈ g.assignmentScripts, Moves stays ind t t := by
    rw [assignmentScripts_eq]
    refine List.forall_mem_map.mpr fun p hp => ?_
    have hname : ∀ name ∈ partNames, name.toList.all (· != '\n') = true := by decide
    exact ((moves_word (hname _ (present_names hp))).append (moves_word (by decide))).append (moves_latex (hassigned p hp))
  refine hspecial.bind fun s s' hs => (Related.mapM fun f hf => .of_ensures (hflag f hf)).bind fun ts us hts => .ok ?_
  have htrailing := moves_joined (by decide : '\n' ∉ ", ".toList) (List.rel_append hts (List.forall₂_same.mpr hnamed))
  have hbody := (hs.append (moves_between (by decide : '\n' ∉ ", ".toList) hs htrailing)).append htrailing
  refine (moves_of_class (by decide) (keyword_isWordChar _ g.kind.mem_all)).append ?_
  exact moves_behind_colon hbody

end OptionGroup

/-! ## Items -/

def Column.Shiftable (stays : Bool) (c : Column) : Prop := ∀ g ∈ c.options, g.Shiftable stays

/-- Behind this indentation, the brace of a table is told from one that stays, and all other braces may stay. -/
def Leaf.Shiftable (stays : Bool) (base : String) : Leaf → Prop
  | .table columns => (stays = true → base ≠ "") ∧ ∀ c ∈ columns, c.Shiftable stays
  | .simulation _ => stays = true
  | _ => True

/-- An item with the same asked of its affix. -/
def Item.Shiftable {α : Type} (stays : Bool) (affix : α → Prop) (i : Item α) : Prop :=
  affix i.affix ∧ ∀ g ∈ i.options, g.Shiftable stays

def Affix.Shiftable (stays : Bool) (base : String) : Affix → Prop
  | .leaf l => l.Shiftable stays base
  | .folder f => stays = true ∧ ∀ c ∈ f.children, c.Shiftable stays (Leaf.Shiftable stays (indented base))

theorem moves_smallFlag (f : SmallFlag) : Moves stays ind f.word f.word := by
  have hword : ∀ f ∈ SmallFlag.all, f.word.toList.all (· != '\n') = true := by decide
  exact moves_word (hword f f.mem_all)

theorem moves_flagsBefore (flags : List SmallFlag) : Moves stays ind (flagsBefore flags) (flagsBefore flags) :=
  moves_join (List.forall₂_same.mpr (List.forall_mem_map.mpr fun f _ =>
    (moves_smallFlag f).append (moves_word (by decide))))

theorem Column.moves (hb : Blanks base) {c : Column} (hc : c.Shiftable stays) (h : Unbroken c.texts) :
    Related (MovesDown stays ind) (c.script (indented base)) (c.script (indented (ind ++ base))) := by
  obtain ⟨hvalues, hoptions⟩ := unbroken_append.mp h
  have hcells : Moves stays ind (cellsScript c.values) (cellsScript c.values) := by
    refine ((moves_word (by decide)).append (moves_joined (by decide) ?_)).append (moves_word (by decide))
    exact List.forall₂_same.mpr (List.forall_mem_map.mpr fun l hl => moves_latex (unbroken_map.mp hvalues l hl))
  have hdeep : indented (ind ++ base) = ind ++ indented base := String.append_assoc
  have hgroups : Related (List.Forall₂ (Moves stays ind)) (c.options.mapM (OptionGroup.script (indented base)))
      (c.options.mapM (OptionGroup.script (indented (ind ++ base)))) := by
    rw [hdeep]
    exact Related.mapM fun g hg => OptionGroup.moves hb.indented (hc g hg) (unbroken_flatMap.mp hoptions g hg)
  refine hgroups.bind fun ts us hts => .ok ?_
  have htail : Moves stays ind (String.join (ts.map ("; " ++ ·))) (String.join (us.map ("; " ++ ·))) := by
    refine moves_join (List.forall₂_map_left_iff.mpr (List.forall₂_map_right_iff.mpr (hts.imp fun t u h => ?_)))
    exact (moves_word (by decide)).append h
  have hrow := moves_deeper hb (((moves_flagsBefore c.smallFlags).append hcells).append htail)
  simpa only [String.append_assoc] using hrow

theorem Leaf.moves (hb : Blanks base) {l : Leaf} (hl : l.Shiftable stays base) (h : Unbroken l.texts) :
    Related (Moves stays ind) (l.script base) (l.script (ind ++ base)) := by
  cases l with
  | table columns =>
    obtain ⟨hbase, hcolumns⟩ := hl
    have hrows : Related (List.Forall₂ (MovesDown stays ind)) (columns.mapM (Column.script (indented base)))
        (columns.mapM (Column.script (indented (ind ++ base)))) :=
      Related.mapM fun c hc => Column.moves hb (hcolumns c hc) (unbroken_flatMap.mp h c hc)
    refine hrows.bind fun ts us hts => .ok ((moves_word (by decide)).append (moves_block hts ?_))
    have hclosing : Moves stays ind (base ++ "\x7d") (base ++ "\x7d") := (moves_base hb).append (moves_word (by decide))
    rw [String.append_assoc]
    refine hclosing.behind_break fun r => ?_
    rw [margin, if_neg]
    rintro ⟨hstays, hhead⟩
    obtain ⟨c, cs, hcs⟩ := List.exists_cons_of_ne_nil (mt String.toList_eq_nil_iff.mp (hbase hstays))
    rw [String.toList_append, hcs, List.cons_append, List.cons_append, List.head?_cons, hb c (by simp [hcs])] at hhead
    revert hhead
    decide
  | simulation rules =>
    obtain rfl := hl
    exact .ok ((moves_word (by decide)).append (moves_rules hb h))
  | expression latex =>
    exact .ok (moves_optional fun l hl => moves_latex (unbroken_map.mp h l (Option.mem_toList.mpr hl)))
  | image url =>
    refine .of_ensures (ensures_map.mpr fun t ht => ?_)
    exact (moves_word (by decide)).append (moves_stringScript h t ht)
  | note text =>
    refine .of_ensures fun t ht => ?_
    obtain ⟨o, ho, rfl⟩ := Leaf.note_eq_ok ht
    exact (moves_word (by decide)).append
      (moves_optional fun x hx => (moves_word (by decide)).append (moves_present h ho x hx))

/-- The rows of an item: the first with the indentation in front, behind which it moves. -/
def MovesBehind (stays : Bool) (ind base t u : String) : Prop :=
  ∃ body body', t = base ++ body ∧ u = ind ++ base ++ body' ∧ Moves stays ind body body'

theorem moves_itemLayout {kind : Kind} {flags : List SmallFlag} {affix affix' : String} {groups groups' : List String}
    (ha : Moves stays ind affix affix') (hg : List.Forall₂ (Moves stays ind) groups groups') :
    MovesBehind stays ind base (itemLayout kind base flags affix groups)
      (itemLayout kind (ind ++ base) flags affix' groups') := by
  have hwords : Moves stays ind (joined " " (flags.map (·.word))) (joined " " (flags.map (·.word))) :=
    moves_joined (by decide) (List.forall₂_same.mpr (List.forall_mem_map.mpr fun f _ => moves_smallFlag f))
  have hoptions : Moves stays ind (optionsScript groups) (optionsScript groups') := by
    refine moves_joined (by decide) ?_
    refine List.forall₂_map_left_iff.mpr (List.forall₂_map_right_iff.mpr (hg.imp fun t u h => ?_))
    exact h.append (moves_word (by decide))
  have hhead : Moves stays ind (if affix = "" then joined " " (flags.map (·.word)) else flagsBefore flags ++ affix)
      (if affix' = "" then joined " " (flags.map (·.word)) else flagsBefore flags ++ affix') := by
    simp only [ha.eq_empty_iff]
    split
    · exact hwords
    · exact (moves_flagsBefore flags).append ha
  have hgap := moves_between (by decide : '\n' ∉ " ".toList) hhead hoptions
  refine ⟨_, _, rfl, rfl, ?_⟩
  cases kind.optionsFirst with
  | true => exact (hoptions.append hgap).append hhead
  | false => exact (hhead.append hgap).append hoptions

theorem item_moves {α : Type} {i : Item α} {kind : α → Kind} {script script' : α → Except Fault String}
    (hb : Blanks base) (ha : Related (Moves stays ind) (script i.affix) (script' i.affix))
    (hg : ∀ g ∈ i.options, g.Shiftable stays) (h : Unbroken (i.options.flatMap OptionGroup.texts)) :
    Related (MovesBehind stays ind base) (i.scriptWith kind script base) (i.scriptWith kind script' (ind ++ base)) := by
  have hgroups : Related (List.Forall₂ (Moves stays ind)) (i.options.mapM (OptionGroup.script base))
      (i.options.mapM (OptionGroup.script (ind ++ base))) :=
    Related.mapM fun g hgm => OptionGroup.moves hb (hg g hgm) (unbroken_flatMap.mp h g hgm)
  exact ha.bind fun _ _ haffix => hgroups.bind fun _ _ hgroups => .ok (moves_itemLayout haffix hgroups)

theorem leafItem_moves (hb : Blanks base) {i : Item Leaf} (hi : i.Shiftable stays (Leaf.Shiftable stays base))
    (h : Unbroken (i.textsWith Leaf.texts)) :
    Related (MovesBehind stays ind base) (leafItemScript base i) (leafItemScript (ind ++ base) i) := by
  obtain ⟨haffix, hoptions⟩ := unbroken_append.mp h
  exact item_moves hb (Leaf.moves hb hi.1 haffix) hi.2 hoptions

/-- A child stands further in than its folder. -/
theorem child_moves (hb : Blanks base) {i : Item Leaf}
    (hi : i.Shiftable stays (Leaf.Shiftable stays (indented base))) (h : Unbroken (i.textsWith Leaf.texts)) :
    Related (MovesDown stays ind) (leafItemScript (indented base) i) (leafItemScript (indented (ind ++ base)) i) := by
  have hdeep : indented (ind ++ base) = ind ++ indented base := String.append_assoc
  rw [hdeep]
  refine (leafItem_moves hb.indented hi h).imp fun t u htu => ?_
  obtain ⟨body, body', rfl, rfl, hbody⟩ := htu
  rw [← hdeep]
  exact moves_deeper hb hbody

theorem Folder.moves (hb : Blanks base) {f : Folder}
    (hf : ∀ c ∈ f.children, c.Shiftable true (Leaf.Shiftable true (indented base)))
    (h : Unbroken (Affix.folder f).texts) : Related (Moves true ind) (f.script base) (f.script (ind ++ base)) := by
  obtain ⟨htexts, hchildren⟩ := unbroken_append.mp h
  have htitle : Related (fun o o' => o = o' ∧ ∀ t ∈ o, Moves true ind t t) (f.title.orNull.present Json.stringScript)
      (f.title.orNull.present Json.stringScript) :=
    .of_ensures fun o ho => ⟨rfl, moves_present (unbroken_orNull htexts) ho⟩
  have hrows : Related (List.Forall₂ (MovesDown true ind)) (f.children.mapM (leafItemScript (indented base)))
      (f.children.mapM (leafItemScript (indented (ind ++ base)))) :=
    Related.mapM fun c hc => child_moves hb (hf c hc) (unbroken_flatMap.mp hchildren c hc)
  refine htitle.bind fun o o' ho => hrows.bind fun ts us hts => .ok ?_
  obtain ⟨rfl, ho⟩ := ho
  refine ((moves_word (by decide)).append ?_).append (moves_block hts brace_stays)
  cases o with
  | none => exact moves_word (w := "") (by decide)
  | some x => exact (ho x rfl).append (moves_word (by decide))

theorem itemScript_moves (hb : Blanks base) {i : Item Affix} (hi : i.Shiftable stays (Affix.Shiftable stays base))
    (h : Unbroken (i.textsWith Affix.texts)) :
    Related (MovesBehind stays ind base) (itemScript base i) (itemScript (ind ++ base) i) := by
  obtain ⟨haffix, hoptions⟩ := unbroken_append.mp h
  refine item_moves hb ?_ hi.2 hoptions
  have hshift := hi.1
  generalize i.affix = a at haffix hshift
  cases a with
  | leaf l => exact Leaf.moves hb hshift haffix
  | folder f =>
    obtain ⟨rfl, hchildren⟩ := hshift
    exact Folder.moves hb hchildren haffix

/-! ## How an item begins -/

/-- Neither a brace nor a blank, so behind its indentation an item may begin with it. -/
def beginsItem (c : Char) : Bool := c != '\x7d' && c != ' '

theorem opens_append {p : Char → Bool} {s t : List Char} (hs : Opens p s) (ht : Opens p t) : Opens p (s ++ t) := by
  cases s with
  | nil => exact ht
  | cons c s => exact opens_cons.mpr (opens_cons.mp hs)

theorem opens_of_head {p : Char → Bool} {w : List Char} (h : w.head?.any p = true) (t : List Char) :
    Opens p (w ++ t) := by
  cases w with
  | nil => cases h
  | cons c w => exact opens_cons.mpr h

/-- Two texts with something between them that is there only behind the first. -/
theorem opens_between {p : Char → Bool} {s t gap : String} (hs : Opens p s.toList) (ht : Opens p t.toList)
    (hgap : s = "" → gap = "") : Opens p (s ++ gap ++ t).toList := by
  rw [String.toList_append, String.toList_append]
  cases hcs : s.toList with
  | nil =>
    rw [hgap (String.toList_eq_nil_iff.mp hcs)]
    exact ht
  | cons c cs =>
    rw [hcs, opens_cons] at hs
    exact opens_cons.mpr hs

theorem opens_options {indentation : String} {gs : List OptionGroup} {texts : List String}
    (h : gs.mapM (OptionGroup.script indentation) = .ok texts) : Opens beginsItem (optionsScript texts).toList := by
  have hkeyword : ∀ k ∈ OptionGroup.kinds, k.keyword.toList.head?.any beginsItem = true := by decide
  cases texts with
  | nil => exact opens_nil _
  | cons t ts =>
    obtain ⟨g, -, hg⟩ := mem_of_mapM h t (List.mem_cons_self ..)
    obtain ⟨r, hr⟩ := OptionGroup.script_cons hg
    rw [optionsScript, List.map_cons, toList_joined_cons, String.toList_append, hr, List.append_assoc, List.append_assoc]
    exact opens_of_head (hkeyword _ g.kind_mem) _

theorem opens_flags (flags : List SmallFlag) : Opens beginsItem (flagsBefore flags).toList ∧
    Opens beginsItem (joined " " (flags.map (·.word))).toList := by
  have hword : ∀ f ∈ SmallFlag.all, f.word.toList.head?.any beginsItem = true := by decide
  cases flags with
  | nil => exact ⟨opens_nil _, opens_nil _⟩
  | cons f flags =>
    rw [flagsBefore, List.map_cons, List.map_cons, String.join_cons, toList_joined_cons, String.toList_append,
      String.toList_append, List.append_assoc]
    exact ⟨opens_of_head (hword f f.mem_all) _, opens_of_head (hword f f.mem_all) _⟩

theorem Leaf.opens {indentation t : String} {l : Leaf} (h : l.script indentation = .ok t) :
    Opens beginsItem t.toList := by
  have hword : ∀ {w : String} (t : String), w.toList.head?.any beginsItem = true → Opens beginsItem (w ++ t).toList := by
    intro w t hw
    rw [String.toList_append]
    exact opens_of_head hw _
  cases l with
  | table columns =>
    simp only [Leaf.script, bind_eq_ok, pure_eq, Except.ok.injEq] at h
    obtain ⟨ts, -, rfl⟩ := h
    exact hword _ (by decide)
  | simulation rules =>
    obtain rfl := Except.ok.inj h
    exact hword _ (by decide)
  | expression latex =>
    obtain rfl := Except.ok.inj h
    cases latex with
    | none => exact opens_nil _
    | some l => exact toList_latex l ▸ opens_cons.mpr (by decide)
  | image url =>
    obtain ⟨x, -, rfl⟩ := map_eq_ok.mp h
    exact hword _ (by decide)
  | note text =>
    obtain ⟨o, -, rfl⟩ := Leaf.note_eq_ok h
    exact hword _ (by decide)

theorem Affix.opens {indentation t : String} {a : Affix} (h : a.script indentation = .ok t) :
    Opens beginsItem t.toList := by
  cases a with
  | leaf l => exact l.opens h
  | folder f =>
    obtain ⟨o, ts, -, -, rfl⟩ := Folder.script_eq_ok h
    rw [String.append_assoc, String.toList_append]
    exact opens_of_head (by decide) _

theorem item_opens {α : Type} {i : Item α} {kind : α → Kind} {script : α → Except Fault String} {t : String}
    (ha : ∀ a, script i.affix = .ok a → Opens beginsItem a.toList) (h : i.scriptWith kind script base = .ok t) :
    ∃ body, t = base ++ body ∧ Opens beginsItem body.toList := by
  simp only [Item.scriptWith, bind_eq_ok, pure_eq, Except.ok.injEq] at h
  obtain ⟨a, ha', groups, hgroups, rfl⟩ := h
  have hoptions := opens_options hgroups
  obtain ⟨hbefore, hwords⟩ := opens_flags i.smallFlags
  have hhead : Opens beginsItem
      (if a = "" then joined " " (i.smallFlags.map (·.word)) else flagsBefore i.smallFlags ++ a).toList := by
    split
    · exact hwords
    · rw [String.toList_append]
      exact opens_append hbefore (ha a ha')
  refine ⟨_, rfl, ?_⟩
  cases (kind i.affix).optionsFirst with
  | true => exact opens_between hoptions hhead fun h => if_pos (.inr h)
  | false => exact opens_between hhead hoptions fun h => if_pos (.inl h)

/-! ## Shifted items -/

/-- The text of an item with an indentation is its text without one, shifted. -/
theorem itemScript_shifted {i : Item Affix} (hi : i.Shiftable stays (Affix.Shiftable stays ""))
    (h : Unbroken (i.textsWith Affix.texts)) (indentation : String) :
    itemScript indentation i = (itemScript "" i).map (shifted stays indentation) := by
  have hb : Blanks "" := nofun
  have hmoves : Related (MovesBehind stays indentation "") (itemScript "" i) (itemScript (indentation ++ "") i) :=
    itemScript_moves hb hi h
  rw [String.append_empty] at hmoves
  refine hmoves.eq_map fun t u ht htu => ?_
  obtain ⟨body, body', rfl, rfl, hbody⟩ := htu
  obtain ⟨_, hsame, hopens⟩ := item_opens (fun _ => Affix.opens) ht
  simp only [String.empty_append, String.append_empty] at hsame ⊢
  subst hsame
  refine hbody.shifted_eq (if_neg ?_)
  rintro ⟨-, hbrace⟩
  exact absurd (hopens _ hbrace) (by decide)

/-! ## Blocks of items -/

theorem OptionGroup.script_of_kind {g : OptionGroup} (hg : g.kind ≠ .clickableRulesOption) (a b : String) :
    g.script a = g.script b := by
  have hspecial : g.special a = g.special b := by
    rw [special_eq, special_eq]
    cases hs : g.first? with
    | none => simp only [Option.map_none, Option.getD_none]
    | some s =>
      simp only [Option.map_some, Option.getD_some]
      cases s with
      | rules rs => exact absurd (kind_of_rules hs) hg
      | _ => rfl
  rw [script, script, hspecial]

theorem OptionGroup.unbroken_script {indentation t : String} {g : OptionGroup} (hg : g.kind ≠ .clickableRulesOption)
    (h : Unbroken g.texts) (ht : g.script indentation = .ok t) : '\n' ∉ t.toList := by
  have hmoves : Related (Moves false " ") (g.script "") (g.script (" " ++ "")) :=
    moves nofun (fun hk => absurd hk hg) h
  rw [script_of_kind hg "" indentation, script_of_kind hg (" " ++ "") indentation, ht] at hmoves
  cases hmoves with
  | ok hmoves => exact unbroken_of_moves hmoves

/-- A text of a block of these rows, behind an opening that stands on the first line right behind the indentation. -/
def HoldsBlock (indentation closing : String) (rows : List String) (t : String) : Prop :=
  ∃ opening : String, '\n' ∉ opening.toList ∧ Opens beginsItem opening.toList ∧
    t = indentation ++ opening ++ block closing rows

theorem item_block {α : Type} {i : Item α} {kind : α → Kind} {script : α → Except Fault String}
    {indentation closing w t : String} {rows : List String} (hfirst : (kind i.affix).optionsFirst = true)
    (hw : '\n' ∉ w.toList) (hopens : Opens beginsItem w.toList)
    (ha : script i.affix = .ok (w ++ block closing rows)) (hg : ∀ g ∈ i.options, g.kind ≠ .clickableRulesOption)
    (h : Unbroken (i.options.flatMap OptionGroup.texts)) (ht : i.scriptWith kind script indentation = .ok t) :
    HoldsBlock indentation closing rows t := by
  simp only [Item.scriptWith, ha, ok_bind, bind_eq_ok, pure_eq, Except.ok.injEq] at ht
  obtain ⟨groups, hgroups, rfl⟩ := ht
  have haffix : w ++ block closing rows ≠ "" := by
    obtain ⟨r, hr⟩ := toList_block closing rows
    rw [Ne, ← String.toList_eq_nil_iff, String.toList_append, hr]
    simp
  have hgroup : ∀ t ∈ groups, Moves false " " t t := by
    intro t ht
    obtain ⟨g, hgm, hgt⟩ := mem_of_mapM hgroups t ht
    exact moves_of_unbroken (g.unbroken_script (hg g hgm) (unbroken_flatMap.mp h g hgm) hgt)
  have hoptions : Moves false " " (optionsScript groups) (optionsScript groups) :=
    moves_joined (by decide) (List.forall₂_same.mpr (List.forall_mem_map.mpr fun t ht =>
      (hgroup t ht).append (moves_word (by decide))))
  obtain ⟨hbefore, -⟩ := opens_flags i.smallFlags
  let head := flagsBefore i.smallFlags ++ w
  let gap := if head ++ block closing rows = "" ∨ optionsScript groups = "" then "" else " "
  have hgap : Moves false " " gap gap := by
    dsimp only [gap]
    split <;> exact moves_word (by decide)
  have hhead : Moves false " " head head := (moves_flagsBefore _).append (moves_of_unbroken hw)
  refine ⟨optionsScript groups ++ gap ++ head, unbroken_of_moves ((hoptions.append hgap).append hhead), ?_, ?_⟩
  · refine opens_between (opens_options hgroups) ?_ fun h => if_pos (.inr h)
    rw [String.toList_append]
    exact opens_append hbefore hopens
  · simp only [itemLayout, if_neg haffix, hfirst, if_true, optionsScript, gap, head, String.append_assoc]

theorem infix_behind_colon {u : List Char} {t : String} (h : u <:+: t.toList) :
    u <:+: (if t = "" then ":" else ": " ++ t).toList := by
  split
  · rename_i ht
    rw [ht, String.toList_empty, List.infix_nil] at h
    exact h ▸ List.nil_infix
  · rw [String.toList_append]
    exact List.infix_append_of_infix_right h

/-- The block of rules is in the text of their group. -/
theorem rules_isInfix {indentation t : String} {rules : List ClickableRule} {flags : List Flag}
    (h : (OptionGroup.clickableRules rules flags).script indentation = .ok t) :
    (rulesScript indentation rules).toList <:+: t.toList := by
  simp only [OptionGroup.script, bind_eq_ok, pure_eq, Except.ok.injEq] at h
  obtain ⟨special, hspecial, texts, -, rfl⟩ := h
  obtain rfl := Except.ok.inj hspecial
  rw [String.toList_append]
  refine List.infix_append_of_infix_right (infix_behind_colon ?_)
  rw [String.toList_append, String.toList_append]
  exact List.infix_append_of_infix_left (List.infix_append_of_infix_left List.infix_rfl)

theorem isInfix_joined {separator u : String} {ts : List String} (h : u ∈ ts) :
    u.toList <:+: (joined separator ts).toList := by
  cases ts with
  | nil => cases h
  | cons t ts =>
    rw [toList_joined_cons, toList_join_map]
    rcases List.mem_cons.mp h with rfl | h
    · exact List.infix_append_of_infix_left List.infix_rfl
    · obtain ⟨before, after, rfl⟩ := List.append_of_mem h
      rw [List.flatMap_append, List.flatMap_cons]
      have hmiddle : u.toList <:+: separator.toList ++ u.toList := List.infix_append_of_infix_right List.infix_rfl
      exact List.infix_append_of_infix_right
        (List.infix_append_of_infix_right (List.infix_append_of_infix_left hmiddle))

/-- The text of each group is in the text of the item. -/
theorem group_isInfix {α : Type} {i : Item α} {kind : α → Kind} {script : α → Except Fault String}
    {indentation t : String} {g : OptionGroup} (hg : g ∈ i.options) (h : i.scriptWith kind script indentation = .ok t) :
    ∃ u, g.script indentation = .ok u ∧ u.toList <:+: t.toList := by
  simp only [Item.scriptWith, bind_eq_ok, pure_eq, Except.ok.injEq] at h
  obtain ⟨a, -, groups, hgroups, rfl⟩ := h
  obtain ⟨u, hu, hgu⟩ := result_of_mapM hgroups g hg
  refine ⟨u, hgu, ?_⟩
  have hoptions : u.toList <:+: (joined " " (groups.map (· ++ ";"))).toList := by
    refine List.IsInfix.trans ?_ (isInfix_joined (List.mem_map_of_mem hu))
    rw [String.toList_append]
    exact List.infix_append_of_infix_left List.infix_rfl
  rw [itemLayout, String.toList_append]
  refine List.infix_append_of_infix_right ?_
  cases (kind i.affix).optionsFirst with
  | true =>
    rw [if_pos rfl, String.toList_append, String.toList_append]
    exact List.infix_append_of_infix_left (List.infix_append_of_infix_left hoptions)
  | false =>
    rw [if_neg Bool.false_ne_true, String.toList_append]
    exact List.infix_append_of_infix_right hoptions

end GraphScript
