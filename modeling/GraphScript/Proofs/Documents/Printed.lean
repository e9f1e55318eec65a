/-
  GraphScript.Proofs.Documents.Printed — a number of a document is known by its text.

  Bounds of the viewport, steps and subdivisions of the axes and the values of regression parameters
  are written as numbers. Another number with the same text may stand in their place, in any of these
  fields and all at once: the document becomes the same script, or the same fault (`documentPrinting`).

  An integer and a fraction of the same value have the same text where the shortest decimal of the
  fraction is the integer digit for digit and no exponent is written, as below `2 ^ 53`. Elsewhere
  they have not: an integer is never rounded and never has an exponent
  (`a_whole_number_has_two_texts`).

  - `numbers_print_by_value`
-/
import GraphScript.Proofs.Number.Printing
import GraphScript.Proofs.State.Spelling
import GraphScript.State.Translate

namespace GraphScript

open Faults

/-! ## Programs that print alike -/

def OptionGroup.Printed (g h : OptionGroup) : Prop := ∀ indentation, h.script indentation = g.script indentation

def Item.Printed {α : Type} (affix : α → α → Prop) (i j : Item α) : Prop :=
  affix i.affix j.affix ∧ j.smallFlags = i.smallFlags ∧ List.Forall₂ OptionGroup.Printed i.options j.options

def Folder.Printed (f g : Folder) : Prop := g.title = f.title ∧ List.Forall₂ (Item.Printed Eq) f.children g.children

def Affix.Printed : Affix → Affix → Prop
  | .leaf l, .leaf m => m = l
  | .folder f, .folder g => f.Printed g
  | _, _ => False

def Line.Printed : Line → Line → Prop
  | .setting s, .setting t => t.script = s.script
  | .item i, .item j => i.Printed Affix.Printed j
  | _, _ => False

theorem OptionGroup.Printed.refl (g : OptionGroup) : g.Printed g := fun _ => rfl

theorem Item.Printed.refl {α : Type} {affix : α → α → Prop} (ha : ∀ a, affix a a) (i : Item α) : i.Printed affix i :=
  ⟨ha _, rfl, List.forall₂_same.mpr fun g _ => .refl g⟩

theorem Affix.Printed.refl : ∀ a : Affix, a.Printed a
  | .leaf _ => rfl
  | .folder _ => ⟨rfl, List.forall₂_same.mpr fun i _ => .refl (fun _ => rfl) i⟩

theorem mapM_printed {α : Type} {R : α → α → Prop} {f : α → Except Fault String} (hf : ∀ a b, R a b → f b = f a)
    {xs ys : List α} (h : List.Forall₂ R xs ys) : ys.mapM f = xs.mapM f := by
  induction h with
  | nil => rfl
  | cons hxy _ ih => rw [List.mapM_cons, List.mapM_cons, hf _ _ hxy, ih]

theorem Item.Printed.scriptWith {α : Type} {affix : α → α → Prop} {kind : α → Kind}
    {affixScript : α → Except Fault String} {i j : Item α} (h : i.Printed affix j)
    (hk : ∀ a b, affix a b → kind b = kind a) (ha : ∀ a b, affix a b → affixScript b = affixScript a)
    (indentation : String) :
    j.scriptWith kind affixScript indentation = i.scriptWith kind affixScript indentation := by
  obtain ⟨haffix, hflags, hoptions⟩ := h
  rw [Item.scriptWith, Item.scriptWith, ha _ _ haffix, hk _ _ haffix, hflags,
    mapM_printed (fun _ _ hg => hg indentation) hoptions]

theorem Folder.Printed.script {f g : Folder} (h : f.Printed g) (indentation : String) :
    g.script indentation = f.script indentation := by
  have hchildren : g.children.mapM (leafItemScript (indented indentation)) =
      f.children.mapM (leafItemScript (indented indentation)) :=
    mapM_printed (fun i j hij => hij.scriptWith (fun _ _ h => by rw [h]) (fun _ _ h => by rw [h]) _) h.2
  rw [Folder.script, Folder.script, h.1, hchildren]

theorem Affix.Printed.kind {a b : Affix} (h : a.Printed b) : b.kind = a.kind := by
  cases a <;> cases b
  · exact congrArg Leaf.kind h
  · exact h.elim
  · exact h.elim
  · rfl

theorem Affix.Printed.script {a b : Affix} (h : a.Printed b) (indentation : String) :
    b.script indentation = a.script indentation := by
  cases a <;> cases b
  · exact congrArg (Leaf.script indentation) h
  · exact h.elim
  · exact h.elim
  · exact Folder.Printed.script h indentation

theorem Line.Printed.script {l m : Line} (h : l.Printed m) : m.script = l.script := by
  cases l <;> cases m
  · exact h
  · exact h.elim
  · exact h.elim
  · exact Item.Printed.scriptWith h (fun _ _ => Affix.Printed.kind) (fun _ _ h => h.script "") ""

theorem Program.script_printed {ls ms : List Line} (h : List.Forall₂ Line.Printed ls ms) :
    Program.script ⟨ms⟩ = Program.script ⟨ls⟩ :=
  congrArg (Except.map (Text.joined "\n")) (mapM_printed (fun _ _ h => Line.Printed.script h) h)

/-! ## Folders -/

structure Entry.Printed (d e : Entry) : Prop where
  id : e.id = d.id
  folderId : e.folderId = d.folderId
  item : d.item.Printed Affix.Printed e.item

structure OpenFolder.Printed (o p : OpenFolder) : Prop where
  id : p.id = o.id
  item : o.item.Printed Folder.Printed p.item
  children : List.Forall₂ (Item.Printed Eq) o.children p.children
  after : List.Forall₂ Line.Printed o.after p.after

structure Walk.Printed (w v : Walk) : Prop where
  lines : List.Forall₂ Line.Printed w.lines v.lines
  opened : Option.Rel OpenFolder.Printed w.opened v.opened
  log : v.log = w.log

namespace Walk

variable {w v : Walk}

theorem Printed.start : start.Printed start := ⟨.nil, .none, rfl⟩

theorem Printed.close (h : w.Printed v) : w.close.Printed v.close := by
  obtain ⟨lines, opened, log⟩ := w
  obtain ⟨lines', opened', log'⟩ := v
  obtain ⟨hlines, hopened, hlog⟩ := h
  cases hopened with
  | none => exact ⟨hlines, .none, hlog⟩
  | some ho =>
    refine ⟨?_, .none, ?_⟩
    · exact List.rel_append hlines (.cons ⟨⟨ho.item.1.1, ho.children⟩, ho.item.2⟩ ho.after)
    · simp only [Walk.close, ho.id, ho.children.length_eq, show log' = log from hlog]

theorem Printed.addLine (h : w.Printed v) {i j : Item Affix} (hi : i.Printed Affix.Printed j) :
    (w.addLine i).Printed (v.addLine j) := ⟨List.rel_append h.lines (.cons hi .nil), h.opened, h.log⟩

theorem Printed.step (h : w.Printed v) {d e : Entry} (he : d.Printed e) : (w.step d).Printed (v.step e) := by
  obtain ⟨did, dfolder, ⟨daffix, dflags, doptions⟩⟩ := d
  obtain ⟨eid, efolder, ⟨eaffix, eflags, eoptions⟩⟩ := e
  obtain ⟨hid, hfolder, haffix, hrest⟩ := he
  subst hid hfolder
  cases daffix with
  | folder f =>
    cases eaffix with
    | leaf m => exact haffix.elim
    | folder g =>
      have hclose := h.close
      exact ⟨hclose.lines, .some ⟨rfl, ⟨haffix, hrest⟩, .nil, .nil⟩, congrArg (· ++ [Event.opened eid]) hclose.log⟩
  | leaf l =>
    cases eaffix with
    | folder g => exact haffix.elim
    | leaf m =>
      obtain ⟨lines, opened, log⟩ := w
      obtain ⟨lines', opened', log'⟩ := v
      have hopened := h.opened
      cases hopened with
      | none => exact h.addLine ⟨haffix, hrest⟩
      | @some o p ho =>
        simp only [Walk.step, ho.id]
        split
        · exact ⟨h.lines, .some ⟨rfl, ho.item, List.rel_append ho.children (.cons ⟨haffix.symm, hrest⟩ .nil), ho.after⟩,
            h.log⟩
        · split
          · exact ⟨h.lines, .some ⟨rfl, ho.item, ho.children,
              List.rel_append ho.after (.cons ⟨haffix, hrest⟩ .nil)⟩, h.log⟩
          · exact h.close.addLine ⟨haffix, hrest⟩

theorem Printed.run (h : w.Printed v) {items items' : List Json}
    (hi : List.Forall₂ (fun j k => Related Entry.Printed (Entry.ofJson j) (Entry.ofJson k)) items items') :
    (v.run items').log = (w.run items).log ∧
      Related (List.Forall₂ Line.Printed) (w.run items).result (v.run items').result := by
  induction hi generalizing w v with
  | nil => exact ⟨h.close.log, .ok h.close.lines⟩
  | @cons j k _ _ hj _ ih =>
    rw [Walk.run, Walk.run]
    generalize Entry.ofJson j = d, Entry.ofJson k = e at hj
    cases hj with
    | ok he => exact ih (h.step he)
    | error e => exact ⟨h.log, .error e⟩

end Walk

/-! ## Documents that print alike -/

namespace Json

/-- The same value, or numbers with one text. -/
def Printed (v w : Json) : Prop := w = v ∨ ∃ text, v.numberScript = .ok text ∧ w.numberScript = .ok text

def itemPrinting : String → Json → Json → Prop :=
  spelling [("regressionParameters", Within fun _ => Printed)] []

def viewportPrinting : String → Json → Json → Prop :=
  spelling [("xmin", Printed), ("xmax", Printed), ("ymin", Printed), ("ymax", Printed)] []

def graphPrinting : String → Json → Json → Prop :=
  spelling [("viewport", Within viewportPrinting), ("xAxisMinorSubdivisions", Printed),
    ("yAxisMinorSubdivisions", Printed), ("xAxisStep", Printed), ("yAxisStep", Printed)] []

/-- Where a document has numbers. -/
def documentPrinting : String → Json → Json → Prop :=
  spelling [("graph", Within graphPrinting),
    ("expressions", Within (spelling [("list", Each (Within itemPrinting))] []))] []

theorem Printed.numberScript {v w : Json} (h : Printed v w) : w.numberScript = v.numberScript := by
  rcases h with rfl | ⟨text, hv, hw⟩
  · rfl
  · rw [hv, hw]

theorem Printed.isNull {v w : Json} (h : Printed v w) : w.isNull = v.isNull := by
  rcases h with rfl | ⟨text, hv, hw⟩
  · rfl
  · have hnot {j : Json} (hj : j.numberScript = .ok text) : j.isNull = false := by
      cases j with
      | null => cases hj
      | bool _ | int _ | float _ | str _ | arr _ | obj _ => rfl
    rw [hnot hv, hnot hw]

theorem Within.truthy {rule : String → Json → Json → Prop} {v w : Json} (h : Within rule v w) :
    w.truthy = v.truthy := by
  unfold Within at h
  split at h
  · cases h <;> rfl
  · rw [h]

theorem Fields.Within.same {special : List (String × (Json → Json → Prop))} {fs gs : Fields}
    (h : Fields.Within (spelling special []) fs gs) {key : String} (hk : (special.lookup key).isNone) :
    gs.get key = fs.get key :=
  (spelling_whole hk List.not_mem_nil).mp (h.get ((spelling_whole hk List.not_mem_nil).mpr rfl))

theorem Fields.Within.refl {rule : String → Json → Json → Prop} (hr : ∀ key v, rule key v v) (fs : Fields) :
    Fields.Within rule fs fs := List.forall₂_same.mpr fun f _ => ⟨rfl, hr f.1 f.2⟩

theorem spelling_refl {special : List (String × (Json → Json → Prop))} (hs : ∀ p ∈ special, ∀ v, p.2 v v)
    (key : String) (v : Json) : spelling special [] key v v := by
  unfold spelling
  split
  · rename_i rule hrule
    obtain ⟨before, after, hspecial, -⟩ := List.lookup_eq_some_iff.mp hrule
    exact hs (key, rule) (hspecial ▸ List.mem_append_right _ (List.mem_cons_self ..)) v
  · rfl

theorem Within.refl {rule : String → Json → Json → Prop} (hr : ∀ key v, rule key v v) (v : Json) : Within rule v v := by
  cases v with
  | obj fs => exact Fields.Within.refl hr fs
  | null | bool _ | int _ | float _ | str _ | arr _ => rfl

theorem Within.fields {rule : String → Json → Json → Prop} (hr : ∀ key v, rule key v v) {v w : Json}
    (h : Within rule v w) : Related (Fields.Within rule) v.fields w.fields := by
  unfold Within at h
  split at h
  · exact .ok h
  · subst h
    exact .refl (Fields.Within.refl hr) _

theorem Within.nested {rule : String → Json → Json → Prop} (hr : ∀ key v, rule key v v) {v w : Json}
    (h : Within rule v w) : Related (Fields.Within rule) v.nested w.nested := by
  unfold Within at h
  split at h
  · cases h with
    | nil => exact .ok .nil
    | cons hf hfs => exact .ok (.cons hf hfs)
  · subst h
    exact .refl (Fields.Within.refl hr) _

theorem Printed.refl (v : Json) : Printed v v := .inl rfl

theorem itemPrinting_refl : ∀ key v, itemPrinting key v v :=
  spelling_refl (List.forall_mem_singleton.mpr (Within.refl fun _ => Printed.refl))

theorem viewportPrinting_refl : ∀ key v, viewportPrinting key v v :=
  spelling_refl (by simp [Printed.refl])

theorem graphPrinting_refl : ∀ key v, graphPrinting key v v :=
  spelling_refl (by simp [Printed.refl, Within.refl viewportPrinting_refl])

theorem listPrinting_refl : ∀ key v, spelling [("list", Each (Within itemPrinting))] [] key v v := by
  refine spelling_refl (List.forall_mem_singleton.mpr fun v => ?_)
  cases v with
  | arr vs => exact List.forall₂_same.mpr fun v _ => Within.refl itemPrinting_refl v
  | null | bool _ | int _ | float _ | str _ | obj _ => rfl

theorem documentPrinting_refl : ∀ key v, documentPrinting key v v :=
  spelling_refl (by simp [Within.refl graphPrinting_refl, Within.refl listPrinting_refl])

end Json

open Json

/-! ## Items -/

theorem parametersScript_printed {fs gs : Json.Fields} (h : Fields.Within (fun _ => Printed) fs gs) :
    parametersScript (gs.map fun (name, value) => ⟨⟨name⟩, value⟩) =
      parametersScript (fs.map fun (name, value) => ⟨⟨name⟩, value⟩) := by
  have hmap : (gs.map fun (name, value) => RegressionParameter.mk ⟨name⟩ value).mapM RegressionParameter.script =
      (fs.map fun (name, value) => RegressionParameter.mk ⟨name⟩ value).mapM RegressionParameter.script := by
    refine mapM_printed (R := fun p q => q.parameter = p.parameter ∧ Printed p.value q.value)
      (fun p q hpq => ?_) ?_
    · rw [RegressionParameter.script, RegressionParameter.script, hpq.1, hpq.2.numberScript]
    · rw [List.forall₂_map_left_iff, List.forall₂_map_right_iff]
      exact h.imp fun f g hfg => ⟨congrArg Latex.mk hfg.1, hfg.2⟩
  rw [parametersScript, parametersScript, hmap]
  cases h <;> rfl

section

variable {fs gs : Json.Fields} (h : Fields.Within itemPrinting fs gs)

include h

theorem item_get {key : String} (hk : key ≠ "regressionParameters") : gs.get key = fs.get key := h.same (by simp [hk])

theorem item_truthy {key : String} (hk : key ≠ "regressionParameters") : gs.truthy key = fs.truthy key := by
  rw [Fields.truthy, Fields.truthy, item_get h hk]

theorem item_has {key : String} (hk : key ≠ "regressionParameters") : gs.has key = fs.has key := by
  rw [Fields.has, Fields.has, item_get h hk]

theorem item_latex {key : String} (hk : key ≠ "regressionParameters") : gs.latex key = fs.latex key := by
  rw [Fields.latex, Fields.latex, item_get h hk]

theorem regression_printed : Related (Option.Rel OptionGroup.Printed) fs.regression gs.regression := by
  have hparameters : Within (fun _ => Printed) (fs.get "regressionParameters") (gs.get "regressionParameters") :=
    h.own "regressionParameters" rfl rfl
  have htruthy : gs.truthy "regressionParameters" = fs.truthy "regressionParameters" := hparameters.truthy
  have hresidual : gs.get "residualVariable" = fs.get "residualVariable" := item_get h (by decide)
  unfold Fields.regression
  rw [htruthy, item_truthy h (by decide), item_truthy h (by decide), hresidual]
  split
  · exact .ok .none
  · refine (hparameters.nested fun _ _ => .inl rfl).bind fun ps qs hpq => ?_
    have hprinted (residuals : Option Latex) (flags : List Flag) :
        OptionGroup.Printed (.regression (ps.map fun (name, value) => ⟨⟨name⟩, value⟩) residuals flags)
          (.regression (qs.map fun (name, value) => ⟨⟨name⟩, value⟩) residuals flags) := by
      intro indentation
      simp only [OptionGroup.script, OptionGroup.special, parametersScript_printed hpq]
      rfl
    split <;> exact Related.behind _ fun residuals => .ok (.some (hprinted residuals _))

theorem expressionGroups_printed :
    Related (List.Forall₂ OptionGroup.Printed) fs.expressionGroups gs.expressionGroups := by
  have hslider : gs.slider = fs.slider := by simp (disch := decide) only [Fields.slider, item_get h]
  have hpolar : gs.polarDomain = fs.polarDomain := by
    simp (disch := decide) only [Fields.polarDomain, item_has h, item_get h]
  have hdomain : gs.domain = fs.domain := by simp (disch := decide) only [Fields.domain, item_has h, item_get h]
  have hcdf : gs.cdf = fs.cdf := by simp (disch := decide) only [Fields.cdf, item_get h]
  have hlabel : gs.label = fs.label := by
    simp (disch := decide) only [Fields.label, item_truthy h, item_latex h, item_get h]
  have hfraction : gs.fraction = fs.fraction := by simp (disch := decide) only [Fields.fraction, item_truthy h]
  simp (disch := decide) only [Fields.expressionGroups, hslider, hpolar, hdomain, hcdf, hlabel, hfraction, item_get h]
  refine Related.behind _ fun info => Related.behind _ fun rules => (regression_printed h).bind fun r s hrs => ?_
  refine Related.behind _ fun slider => Related.behind _ fun polar => Related.behind _ fun domain => ?_
  refine Related.behind _ fun cdf => Related.behind _ fun label => Related.behind _ fun viz => ?_
  refine Related.behind _ fun boxplot => .ok (List.rel_filterMap (fun _ _ h => h) ?_)
  have hsame (o : Option OptionGroup) : Option.Rel OptionGroup.Printed o o := by
    cases o with
    | none => exact .none
    | some g => exact .some (.refl g)
  exact .cons (hsame _) (.cons (hsame _) (.cons hrs (List.forall₂_same.mpr fun o _ => hsame o)))

theorem groups_printed (kind : ItemKind) :
    Related (List.Forall₂ OptionGroup.Printed) (kind.groups fs) (kind.groups gs) := by
  have hsame {x y : Except Fault (List OptionGroup)} (hxy : y = x) : Related (List.Forall₂ OptionGroup.Printed) x y := by
    rw [hxy]
    exact .refl (fun gs => List.forall₂_same.mpr fun g _ => .refl g) x
  cases kind with
  | expression => exact expressionGroups_printed h
  | folder | table | text => exact hsame rfl
  | simulation =>
    refine hsame ?_
    simp (disch := decide) only [ItemKind.groups, item_latex h]
  | image =>
    refine hsame ?_
    simp (disch := decide) only [ItemKind.groups, ItemKind.geometry, item_get h, item_has h, item_latex h]

theorem item_printed : Related (Item.Printed Affix.Printed) (Item.ofJson (.obj fs)) (Item.ofJson (.obj gs)) := by
  have hid : (Json.obj gs).need "id" = (Json.obj fs).need "id" := by
    rcases h.lookup "id" with ⟨hf, hg⟩ | ⟨v, w, hf, hg, hvw⟩
    · rw [need, need, hf, hg]
    · rw [need, need, hf, hg, (spelling_whole (by decide) List.not_mem_nil).mp hvw]
  have hstyling : gs.styling = fs.styling := by
    have halike : Fields.Alike stylingWhole stylingExpressions fs gs := by
      refine ⟨fun key hk => item_get h (ne_of_mem_of_not_mem hk (by decide)), fun key hk => ?_⟩
      rw [item_get h (ne_of_mem_of_not_mem hk (by decide))]
      exact ⟨rfl, rfl⟩
    exact halike.styling
  have hflags (kind : ItemKind) : kind.smallFlags gs = kind.smallFlags fs := by
    cases kind <;> simp (disch := decide) only [ItemKind.smallFlags, item_truthy h]
  have haffix (kind : ItemKind) : kind.affix gs = kind.affix fs := by
    cases kind <;> simp (disch := decide) only [ItemKind.affix, item_truthy h, item_get h, item_latex h]
  simp (disch := decide) only [Item.ofJson, fields, ok_bind, hid, hstyling, item_get h, item_truthy h, hflags, haffix]
  refine Related.behind _ fun id => Related.behind _ fun styling => ?_
  cases ItemKind.ofJson? (fs.get "type") with
  | none => exact .error _
  | some kind =>
    refine Related.behind _ fun affix => (groups_printed h kind).bind fun groups groups' hgroups => .ok ?_
    exact ⟨.refl affix, rfl, .cons (.refl _) (List.rel_append (List.forall₂_same.mpr fun g _ => .refl g) hgroups)⟩

theorem entry_printed : Related Entry.Printed (Entry.ofJson (.obj fs)) (Entry.ofJson (.obj gs)) := by
  refine (item_printed h).bind fun i j hij => .ok ⟨item_get h (by decide), item_get h (by decide), hij⟩

end

theorem Json.Within.entry_printed {v w : Json} (h : Within itemPrinting v w) :
    Related Entry.Printed (Entry.ofJson v) (Entry.ofJson w) := by
  unfold Within at h
  split at h
  · exact GraphScript.entry_printed h
  · subst h
    exact .refl (fun e => ⟨rfl, rfl, .refl .refl e.item⟩) _

/-! ## Settings -/

section

variable {v w : Json}

/-- What an object that must have a key has there. -/
theorem Json.Within.need {rule : String → Json → Json → Prop} (h : Within rule v w) (key : String) :
    Related (rule key) (v.need key) (w.need key) := by
  unfold Within at h
  split at h
  · rcases h.lookup key with ⟨hf, hg⟩ | ⟨v, w, hf, hg, hvw⟩
    · rw [Json.need, Json.need, hf, hg]
      exact .error _
    · rw [Json.need, Json.need, hf, hg]
      exact .ok hvw
  · rename_i hnot
    subst h
    cases w with
    | obj fs => exact absurd rfl (hnot fs fs rfl)
    | null | bool _ | int _ | float _ | str _ | arr _ => exact .error _

def Setting.Printed (s t : Setting) : Prop := t.script = s.script

theorem viewport_printed (h : Within graphPrinting v w) :
    Related Setting.Printed (viewportSetting v) (viewportSetting w) := by
  refine (h.need "viewport").bind fun a b hab => ?_
  have hview : Within viewportPrinting a b := hab
  refine (hview.need "xmin").bind fun xmin xmin' hxmin => (hview.need "xmax").bind fun xmax xmax' hxmax => ?_
  refine (hview.need "ymin").bind fun ymin ymin' hymin => (hview.need "ymax").bind fun ymax ymax' hymax => .ok ?_
  have hx : NumberInterval.script ⟨xmin', xmax'⟩ = NumberInterval.script ⟨xmin, xmax⟩ := by
    rw [NumberInterval.script, NumberInterval.script, Printed.numberScript hxmin, Printed.numberScript hxmax]
  have hy : NumberInterval.script ⟨ymin', ymax'⟩ = NumberInterval.script ⟨ymin, ymax⟩ := by
    rw [NumberInterval.script, NumberInterval.script, Printed.numberScript hymin, Printed.numberScript hymax]
  simp only [Setting.Printed, Setting.script, Setting.body, axisParts, hx, hy]
  rfl

theorem flagsSetting_printed (h : Within graphPrinting v w) : flagsSetting w = flagsSetting v := by
  refine (((h.fields (graphPrinting_refl)).bind fun fs gs hfg => ?_).eq).symm
  have hkeys : ∀ toggle ∈ graphToggles, gs.get toggle.1 = fs.get toggle.1 := by
    simp (disch := decide) only [graphToggles, List.forall_mem_cons, hfg.same, true_and]
    exact nofun
  have htoggles : toggleFlags gs = toggleFlags fs := List.filterMap_congr fun ⟨key, whenTrue, whenFalse⟩ hmem => by
    have hkey : gs.get key = fs.get key := hkeys _ hmem
    simp only [hkey]
  rw [htoggles]
  exact .refl (fun _ => rfl) _

variable {fs gs : Json.Fields}

theorem rawSetting_printed {setting : Json → Json → Setting} {x y : String}
    (hs : ∀ a b c d, Printed a c → Printed b d → (setting a b).Printed (setting c d))
    (hx : Printed (fs.get x) (gs.get x)) (hy : Printed (fs.get y) (gs.get y)) :
    Option.Rel Setting.Printed (fs.rawSetting setting x y) (gs.rawSetting setting x y) := by
  rw [Fields.rawSetting, Fields.rawSetting, Fields.has, Fields.has, Fields.has, Fields.has, hx.isNull, hy.isNull]
  split
  · exact .some (hs _ _ _ _ hx hy)
  · exact .none

theorem axisParts_printed {a b c d : Json} (hac : Printed a c) (hbd : Printed b d) :
    axisParts (Json.present Json.numberScript) c d = axisParts (Json.present Json.numberScript) a b := by
  rw [axisParts, axisParts, Json.present, Json.present, Json.present, Json.present, hac.isNull, hac.numberScript,
    hbd.isNull, hbd.numberScript]

theorem axisSettings_printed (h : Fields.Within graphPrinting fs gs) :
    Related (List.Forall₂ Setting.Printed) fs.axisSettings gs.axisSettings := by
  have harrows : gs.arrowSetting = fs.arrowSetting := by
    rw [Fields.arrowSetting, Fields.arrowSetting, h.same (by decide), h.same (by decide)]
  have hlabels : gs.rawSetting .axisLabels "xAxisLabel" "yAxisLabel" =
      fs.rawSetting .axisLabels "xAxisLabel" "yAxisLabel" := by
    rw [Fields.rawSetting, Fields.rawSetting, Fields.has, Fields.has, Fields.has, Fields.has, h.same (by decide),
      h.same (by decide)]
  have haxes : gs.axesSetting = fs.axesSetting := by
    rw [Fields.axesSetting, Fields.axesSetting, h.same (by decide), h.same (by decide)]
  have hnumbers : gs.numbersSetting = fs.numbersSetting := by
    rw [Fields.numbersSetting, Fields.numbersSetting, h.same (by decide), h.same (by decide), h.same (by decide)]
  have hdivisions : Option.Rel Setting.Printed
      (fs.rawSetting .minorSubdivisions "xAxisMinorSubdivisions" "yAxisMinorSubdivisions")
      (gs.rawSetting .minorSubdivisions "xAxisMinorSubdivisions" "yAxisMinorSubdivisions") :=
    rawSetting_printed (fun a b c d hac hbd => by
      simp only [Setting.Printed, Setting.script, Setting.body, axisParts_printed hac hbd]
      rfl) (h.own _ rfl (.inl rfl)) (h.own _ rfl (.inl rfl))
  have hsteps : Option.Rel Setting.Printed (fs.rawSetting .axisSteps "xAxisStep" "yAxisStep")
      (gs.rawSetting .axisSteps "xAxisStep" "yAxisStep") :=
    rawSetting_printed (fun a b c d hac hbd => by
      simp only [Setting.Printed, Setting.script, Setting.body, axisParts_printed hac hbd]
      rfl) (h.own _ rfl (.inl rfl)) (h.own _ rfl (.inl rfl))
  have hsame (o : Option Setting) : Option.Rel Setting.Printed o o := by
    cases o with
    | none => exact .none
    | some s => exact .some rfl
  rw [Fields.axisSettings, Fields.axisSettings, harrows, hlabels, haxes, hnumbers]
  refine Related.behind _ fun arrows => .ok (List.rel_filterMap (fun _ _ h => h) ?_)
  exact .cons hdivisions (.cons hsteps (List.forall₂_same.mpr fun o _ => hsame o))

end

/-! ## Documents -/

section

variable {fs gs : Json.Fields} (h : Fields.Within documentPrinting fs gs)

include h

theorem graphOf_printed : Within graphPrinting (graphOf fs) (graphOf gs) := by
  have hgraph : Within graphPrinting (fs.get "graph") (gs.get "graph") := h.own "graph" rfl rfl
  rw [graphOf, graphOf, Fields.truthy, Fields.truthy, hgraph.truthy]
  split
  · exact hgraph
  · exact .nil

theorem stateSettings_printed (graphFlags : Bool) :
    Related (List.Forall₂ Setting.Printed) (stateSettings graphFlags fs) (stateSettings graphFlags gs) := by
  have hgraph := graphOf_printed h
  have hseed : gs.get "randomSeed" = fs.get "randomSeed" := h.same (by decide)
  have hsame (ss : List Setting) : List.Forall₂ Setting.Printed ss ss := List.forall₂_same.mpr fun _ _ => rfl
  have hsettings : Related (List.Forall₂ Setting.Printed) (graphSettings (graphOf fs)) (graphSettings (graphOf gs)) :=
    (viewport_printed hgraph).bind fun s t hst => (hgraph.fields graphPrinting_refl).bind fun fs gs hfg =>
      (axisSettings_printed hfg).bind fun ss ts hrest => .ok (.cons hst hrest)
  unfold stateSettings
  rw [Fields.has, Fields.has, hseed, flagsSetting_printed hgraph]
  cases graphFlags <;>
    exact Related.behind _ fun flags => hsettings.bind fun ss ts hst => .ok (List.rel_append (hsame _) hst)

theorem stateItems_printed : Related (List.Forall₂ (Within itemPrinting)) (stateItems fs) (stateItems gs) := by
  have hexpressions : Within (spelling [("list", Each (Within itemPrinting))] []) (fs.get "expressions")
      (gs.get "expressions") := h.own "expressions" rfl rfl
  refine (hexpressions.nested listPrinting_refl).bind fun es fs' hef => ?_
  have hlist : Each (Within itemPrinting) (es.get "list") (fs'.get "list") := hef.own "list" rfl rfl
  unfold Each at hlist
  split at hlist
  · rename_i vs ws hv hw
    have hmembers : ∀ vs : List Json, (Json.arr vs).membersIfAny = .ok vs := by
      intro vs
      cases vs <;> rfl
    rw [hv, hw, hmembers, hmembers]
    exact .ok hlist
  · rw [hlist]
    exact .refl (fun ms => List.forall₂_same.mpr fun m _ => Within.refl itemPrinting_refl m) _

end

theorem stateFields_printed {v w : Json} (h : Within documentPrinting v w) :
    Related (Fields.Within documentPrinting) (stateFields v) (stateFields w) := by
  unfold Within at h
  split at h
  · have hversion := h.same (show _ from (by decide : Option.isNone (List.lookup "version" _) = true))
    simp only [stateFields, fields, hversion]
    split
    · exact .ok h
    · exact .error _
  · subst h
    exact .refl (Fields.Within.refl documentPrinting_refl) _

theorem stateParts_printed {v w : Json} (h : Within documentPrinting v w) (graphFlags : Bool) :
    Related (fun p q => List.Forall₂ Setting.Printed p.1 q.1 ∧ List.Forall₂ (Within itemPrinting) p.2 q.2)
      (stateParts graphFlags v) (stateParts graphFlags w) :=
  (stateFields_printed h).bind fun _ _ hfg => (stateSettings_printed hfg graphFlags).bind fun _ _ hs =>
    (stateItems_printed hfg).bind fun _ _ hi => .ok ⟨hs, hi⟩

/-- The script of a document, and its log, are those of a document whose numbers have the same texts. -/
theorem translate_printed {v w : Json} (h : Within documentPrinting v w) (graphFlags : Bool) :
    (translate graphFlags w).log = (translate graphFlags v).log ∧
      ((translate graphFlags w).result.bind Program.script) = (translate graphFlags v).result.bind Program.script := by
  have hparts := stateParts_printed h graphFlags
  unfold translate
  generalize stateParts graphFlags v = p, stateParts graphFlags w = q at hparts
  cases hparts with
  | error e => exact ⟨rfl, rfl⟩
  | @ok p q hpq =>
    obtain ⟨settings, items⟩ := p
    obtain ⟨settings', items'⟩ := q
    obtain ⟨hsettings, hitems⟩ := hpq
    obtain ⟨hlog, hwalk⟩ := Walk.Printed.start.run (hitems.imp fun _ _ => Json.Within.entry_printed)
    have hlines : List.Forall₂ Line.Printed (settings.map Line.setting) (settings'.map Line.setting) := by
      rw [List.forall₂_map_left_iff, List.forall₂_map_right_iff]
      exact hsettings
    dsimp only [foldersOf]
    generalize (Walk.start.run items).result = x, (Walk.start.run items').result = y at hwalk
    cases hwalk with
    | error e => exact ⟨hlog, rfl⟩
    | ok hw =>
      have hall := List.rel_append hlines hw
      refine ⟨?_, Program.script_printed hall⟩
      dsimp only
      rw [hlog, hitems.length_eq, hall.length_eq]

/-! ## Integers and fractions -/

theorem Numeral.ofInt_value (n : Int) : (Numeral.ofInt n).value = n := by
  rw [Numeral.value, Numeral.ofInt_unsigned, ← Int.cast_natCast, ← Int.cast_neg]
  by_cases hn : n < 0
  · rw [if_pos (show (Numeral.ofInt n).negative = true from decide_eq_true hn)]
    congr 1
    omega
  · rw [if_neg (show ¬ (Numeral.ofInt n).negative = true from fun h => hn (of_decide_eq_true h))]
    congr 1
    omega

/-- A number that is an integer has the text of the integer exactly where that is the value of its shortest decimal and
    below `10 ^ 21`, as it is below `2 ^ 53`. Every integer is written out in full, and a document is written the same
    with any numbers that have the texts of its own. -/
theorem numbers_print_by_value (negative : Bool) (rank : Fin Binary64.ranks) {n : Int}
    (hn : Binary64.toInt? (.finite negative rank) = some n) :
    ((Json.int n).numberScript = (Json.float (.finite negative rank)).numberScript ↔
      n.natAbs < 10 ^ 21 ∧ (n = 0 ∨ (Binary64.shortest rank).value = n.natAbs)) ∧
    (n.natAbs < 2 ^ 53 → (Json.int n).numberScript = (Json.float (.finite negative rank)).numberScript) ∧
    (∀ m : Int, ∃ text, (Json.int m).numberScript = .ok text ∧ Numeral.read? text = some (Numeral.ofInt m) ∧
      (Numeral.ofInt m).value = m) ∧
    ∀ (graphFlags : Bool) (v w : Json), Within documentPrinting v w →
      (translate graphFlags w).log = (translate graphFlags v).log ∧
        ((translate graphFlags w).result.bind Program.script) =
          (translate graphFlags v).result.bind Program.script := by
  refine ⟨?_, fun hlimit => ?_, fun m => ⟨_, rfl, ?_, Numeral.ofInt_value m⟩,
    fun graphFlags v w h => translate_printed h graphFlags⟩
  · rw [← Layout.text_eq_toString_iff hn, Json.numberScript, Json.numberScript, Except.ok.injEq, eq_comm]
  · rw [Json.numberScript, Json.numberScript, Layout.text_of_small hn hlimit]
  · rw [← Numeral.text_ofInt, Numeral.read?_text (Numeral.ofInt_legible m)]

/-- A five that is an integer in one document and none in the other: a bound, a step and the value of a parameter. -/
theorem numbers_of_a_five_print_alike :
    let rank : Fin Binary64.ranks := ⟨Binary64.rankOfRatio 5 1, by decide +kernel⟩
    let document (five : Json) := Json.obj [("version", .int supportedVersion),
      ("graph", .obj [("viewport", .obj [("xmin", .int 0), ("xmax", five), ("ymin", .int 0), ("ymax", .int 1)]),
        ("xAxisStep", five)]),
      ("expressions", .obj [("list", .arr [.obj [("type", .str "expression"), ("id", .str "1"),
        ("regressionParameters", .obj [("a", five)])]])])]
    Binary64.toInt? (.finite false rank) = some 5 ∧
      (Json.int 5).numberScript = (Json.float (.finite false rank)).numberScript ∧
      Within documentPrinting (document (.int 5)) (document (.float (.finite false rank))) ∧
      (translate true (document (.float (.finite false rank)))).result.bind Program.script =
        (translate true (document (.int 5))).result.bind Program.script := by
  intro rank document
  have hint : Binary64.toInt? (.finite false rank) = some 5 := by decide +kernel
  obtain ⟨-, hsmall, -, hdocuments⟩ := numbers_print_by_value false rank hint
  have htext := hsmall (by decide)
  have hfive : Printed (.int 5) (.float (.finite false rank)) := .inr ⟨_, rfl, htext.symm⟩
  have hviewport : Within viewportPrinting
      (.obj [("xmin", .int 0), ("xmax", .int 5), ("ymin", .int 0), ("ymax", .int 1)])
      (.obj [("xmin", .int 0), ("xmax", .float (.finite false rank)), ("ymin", .int 0), ("ymax", .int 1)]) :=
    .cons ⟨rfl, .inl rfl⟩ (.cons ⟨rfl, hfive⟩ (.cons ⟨rfl, .inl rfl⟩ (.cons ⟨rfl, .inl rfl⟩ .nil)))
  have hparameters : Within (fun _ => Printed) (.obj [("a", .int 5)]) (.obj [("a", .float (.finite false rank))]) :=
    .cons ⟨rfl, hfive⟩ .nil
  have hitem : Within itemPrinting
      (.obj [("type", .str "expression"), ("id", .str "1"), ("regressionParameters", .obj [("a", .int 5)])])
      (.obj [("type", .str "expression"), ("id", .str "1"),
        ("regressionParameters", .obj [("a", .float (.finite false rank))])]) :=
    .cons ⟨rfl, rfl⟩ (.cons ⟨rfl, rfl⟩ (.cons ⟨rfl, hparameters⟩ .nil))
  have hdocument : Within documentPrinting (document (.int 5)) (document (.float (.finite false rank))) := by
    refine .cons ⟨rfl, rfl⟩ (.cons ⟨rfl, ?_⟩ (.cons ⟨rfl, ?_⟩ .nil))
    · exact .cons ⟨rfl, hviewport⟩ (.cons ⟨rfl, hfive⟩ .nil)
    · exact .cons ⟨rfl, .cons hitem .nil⟩ .nil
  exact ⟨hint, htext, hdocument, (hdocuments true _ _ hdocument).2⟩

/-- At `2 ^ 60` the shortest digits are not the number's own, and `10 ^ 21` has an exponent as a fraction alone. -/
theorem a_whole_number_has_two_texts :
    (Binary64.toInt? (Binary64.ofDecimal false (2 ^ 60) 0) = some (2 ^ 60) ∧
      (Json.int (2 ^ 60)).numberScript = .ok "1152921504606846976" ∧
      (Json.float (Binary64.ofDecimal false (2 ^ 60) 0)).numberScript = .ok "1152921504606847000") ∧
    Binary64.toInt? (Binary64.ofDecimal false 1 21) = some (10 ^ 21) ∧
      (Json.int (10 ^ 21)).numberScript = .ok "1000000000000000000000" ∧
      (Json.float (Binary64.ofDecimal false 1 21)).numberScript = .ok "1e+21" := by
  decide +kernel

end GraphScript
