/-
  GraphScript.Proofs.Script.Writable — which programs can be written.

  A program carries values of the document unread, and they can be anything. Its script shows some
  of them as strings, some as numbers and one as a flag. Where a value is not of that sort the
  script fails, with the fault of a value that does not fit; all else can always be written, once
  every setting has a part to show (`Setting.Populated`).

  - `Program.script_succeeds`, `Program.script_misfit`
-/
import GraphScript.Proofs.State.Fields

namespace GraphScript

open Faults Json

/-! ## Option groups -/

def Flag.Writable : Flag → Prop
  | .word _ => True
  | .given value => value.IsText

theorem Flag.script_succeeds (f : Flag) : Succeeds f.script ↔ f.Writable := by
  cases f with
  | word w => simp [script, Writable]
  | given value => cases value <;> simp [script, Writable, IsText]

theorem Flag.script_misfit (f : Flag) : FailsWith Fault.IsMisfit f.script := by
  cases f with
  | word w => exact failsWith_ok _
  | given value => cases value <;> simp [script, Fault.IsMisfit]

theorem RegressionParameter.script_succeeds (p : RegressionParameter) : Succeeds p.script ↔ p.value.IsNumber := by
  simp [script, succeeds_bind, numberScript_succeeds]

theorem RegressionParameter.script_misfit (p : RegressionParameter) : FailsWith Fault.IsMisfit p.script := by
  simp [script, failsWith_bind, numberScript_misfit]

theorem parametersScript_succeeds (parameters : List RegressionParameter) :
    Succeeds (parametersScript parameters) ↔ ∀ p ∈ parameters, p.value.IsNumber := by
  cases parameters with
  | nil => simp [parametersScript]
  | cons p ps => simp only [parametersScript, List.isEmpty_cons, Bool.false_eq_true, if_false, succeeds_map,
      succeeds_mapM, RegressionParameter.script_succeeds]

theorem parametersScript_misfit (parameters : List RegressionParameter) :
    FailsWith Fault.IsMisfit (parametersScript parameters) := by
  unfold parametersScript
  split
  · exact failsWith_ok _
  · exact failsWith_map.mpr (.mapM fun p _ => p.script_misfit)

namespace OptionGroup

/-- The value that stands first in the group is of the sort that is written there. -/
def Presentable : OptionGroup → Prop
  | .color value _ | .label value _ _ _ => NullOr IsText value
  | .regression parameters _ _ => ∀ p ∈ parameters, p.value.IsNumber
  | .clickableLabel value | .name value => value.IsText
  | _ => True

def Writable (g : OptionGroup) : Prop := g.Presentable ∧ ∀ f ∈ g.flags, f.Writable

theorem special_succeeds (indentation : String) (g : OptionGroup) :
    Succeeds (g.special indentation) ↔ g.Presentable := by
  cases g with
  | color value source | label value size angle flags =>
    exact succeeds_map.trans (present_succeeds (fun _ => stringScript_succeeds) value)
  | regression parameters residuals flags => exact succeeds_map.trans (parametersScript_succeeds parameters)
  | clickableLabel value | name value => exact stringScript_succeeds
  | _ => simp [special, Presentable]

theorem special_misfit (indentation : String) (g : OptionGroup) :
    FailsWith Fault.IsMisfit (g.special indentation) := by
  cases g with
  | color value source | label value size angle flags =>
    exact failsWith_map.mpr (present_failsWith stringScript_misfit value)
  | regression parameters residuals flags => exact failsWith_map.mpr (parametersScript_misfit parameters)
  | clickableLabel value | name value => exact stringScript_misfit value
  | _ => exact failsWith_ok _

theorem script_succeeds (indentation : String) (g : OptionGroup) : Succeeds (g.script indentation) ↔ g.Writable := by
  simp only [script, succeeds_bind, pure_eq, succeeds_ok, implies_true, and_true, succeeds_and_forall]
  rw [special_succeeds, succeeds_mapM]
  simp only [Flag.script_succeeds, Writable]

theorem script_misfit (indentation : String) (g : OptionGroup) : FailsWith Fault.IsMisfit (g.script indentation) := by
  simp only [script, failsWith_bind, pure_eq, failsWith_ok, implies_true, and_true]
  exact ⟨g.special_misfit indentation, fun _ _ => .mapM fun f _ => f.script_misfit⟩

end OptionGroup

/-! ## Items -/

def Column.Writable (c : Column) : Prop := ∀ g ∈ c.options, g.Writable

theorem Column.script_succeeds (indentation : String) (c : Column) : Succeeds (c.script indentation) ↔ c.Writable := by
  simp [script, succeeds_bind, succeeds_mapM, OptionGroup.script_succeeds, Writable]

theorem Column.script_misfit (indentation : String) (c : Column) : FailsWith Fault.IsMisfit (c.script indentation) := by
  simp only [script, failsWith_bind, pure_eq, failsWith_ok, implies_true, and_true]
  exact .mapM fun g _ => g.script_misfit indentation

def Leaf.Writable : Leaf → Prop
  | .table columns => ∀ c ∈ columns, c.Writable
  | .image url => url.IsText
  | .note text => NullOr IsText text
  | .simulation _ | .expression _ => True

theorem Leaf.script_succeeds (indentation : String) (l : Leaf) : Succeeds (l.script indentation) ↔ l.Writable := by
  cases l with
  | table columns => simp [script, succeeds_bind, succeeds_mapM, Column.script_succeeds, Writable]
  | image url => exact succeeds_map.trans stringScript_succeeds
  | note text => exact succeeds_map.trans (present_succeeds (fun _ => stringScript_succeeds) text)
  | simulation rules | expression latex => simp [script, Writable]

theorem Leaf.script_misfit (indentation : String) (l : Leaf) : FailsWith Fault.IsMisfit (l.script indentation) := by
  cases l with
  | table columns =>
    simp only [script, failsWith_bind, pure_eq, failsWith_ok, implies_true, and_true]
    exact .mapM fun c _ => c.script_misfit (indented indentation)
  | image url => exact failsWith_map.mpr (stringScript_misfit url)
  | note text => exact failsWith_map.mpr (present_failsWith stringScript_misfit text)
  | simulation rules | expression latex => exact failsWith_ok _

section

variable {α : Type} {kind : α → Kind} {script : α → Except Fault String}

/-- An item whose affix is of this sort and whose option groups can be written. -/
def Item.Writable (affix : α → Prop) (i : Item α) : Prop := affix i.affix ∧ ∀ g ∈ i.options, g.Writable

theorem Item.scriptWith_succeeds {affix : α → Prop} (ha : ∀ a, Succeeds (script a) ↔ affix a) (indentation : String)
    (i : Item α) : Succeeds (i.scriptWith kind script indentation) ↔ i.Writable affix := by
  simp only [scriptWith, succeeds_bind, pure_eq, succeeds_ok, implies_true, and_true, succeeds_and_forall]
  rw [ha, succeeds_mapM]
  simp only [OptionGroup.script_succeeds, Writable]

theorem Item.scriptWith_misfit (ha : ∀ a, FailsWith Fault.IsMisfit (script a)) (indentation : String) (i : Item α) :
    FailsWith Fault.IsMisfit (i.scriptWith kind script indentation) := by
  simp only [scriptWith, failsWith_bind, pure_eq, failsWith_ok, implies_true, and_true]
  exact ⟨ha i.affix, fun _ _ => .mapM fun g _ => g.script_misfit indentation⟩

end

def Folder.Writable (f : Folder) : Prop := FalsyOr IsText f.title ∧ ∀ i ∈ f.children, i.Writable Leaf.Writable

theorem nullOr_orNull {sort : Json → Prop} (j : Json) : NullOr sort j.orNull ↔ FalsyOr sort j := by
  unfold orNull
  split
  · rename_i ht
    have hn : j ≠ .null := by
      rintro rfl
      cases ht
    simp [NullOr, FalsyOr, ht, hn]
  · rename_i ht
    simp [NullOr, FalsyOr, ht]

theorem leafItemScript_succeeds (indentation : String) (i : Item Leaf) :
    Succeeds (leafItemScript indentation i) ↔ i.Writable Leaf.Writable :=
  i.scriptWith_succeeds (Leaf.script_succeeds indentation) indentation

theorem leafItemScript_misfit (indentation : String) (i : Item Leaf) :
    FailsWith Fault.IsMisfit (leafItemScript indentation i) :=
  i.scriptWith_misfit (Leaf.script_misfit indentation) indentation

theorem Folder.script_succeeds (indentation : String) (f : Folder) : Succeeds (f.script indentation) ↔ f.Writable := by
  simp only [script, succeeds_bind, pure_eq, succeeds_ok, implies_true, and_true, succeeds_and_forall]
  rw [present_succeeds (fun _ => stringScript_succeeds), nullOr_orNull, succeeds_mapM]
  simp only [leafItemScript_succeeds, Writable]

theorem Folder.script_misfit (indentation : String) (f : Folder) : FailsWith Fault.IsMisfit (f.script indentation) := by
  simp only [script, failsWith_bind, pure_eq, failsWith_ok, implies_true, and_true]
  exact ⟨present_failsWith stringScript_misfit _, fun _ _ => .mapM fun i _ => leafItemScript_misfit _ i⟩

def Affix.Writable : Affix → Prop
  | .leaf l => l.Writable
  | .folder f => f.Writable

theorem Affix.script_succeeds (indentation : String) (a : Affix) : Succeeds (a.script indentation) ↔ a.Writable := by
  cases a with
  | leaf l => exact l.script_succeeds indentation
  | folder f => exact f.script_succeeds indentation

theorem Affix.script_misfit (indentation : String) (a : Affix) : FailsWith Fault.IsMisfit (a.script indentation) := by
  cases a with
  | leaf l => exact l.script_misfit indentation
  | folder f => exact f.script_misfit indentation

/-! ## Settings -/

def NumberInterval.Writable (i : NumberInterval) : Prop := i.start.IsNumber ∧ i.stop.IsNumber

namespace Setting

/-- The setting has a part to show. -/
def Populated : Setting → Prop
  | .seed _ => True
  | .flags words => words ≠ []
  | .viewport x y => x ≠ none ∨ y ≠ none
  | .minorSubdivisions x y | .axisSteps x y | .axisLabels x y => x ≠ .null ∨ y ≠ .null
  | .axisArrows x y => x ≠ none ∨ y ≠ none
  | .axes x y => x ≠ none ∨ y ≠ none
  | .axisNumbers x y polar => x ≠ none ∨ y ≠ none ∨ polar ≠ none

def Writable : Setting → Prop
  | .seed value => value.IsText
  | .flags words => ∀ f ∈ words, f.Writable
  | .viewport x y => (∀ i ∈ x, i.Writable) ∧ ∀ i ∈ y, i.Writable
  | .minorSubdivisions x y | .axisSteps x y => NullOr IsNumber x ∧ NullOr IsNumber y
  | .axisLabels x y => NullOr IsText x ∧ NullOr IsText y
  | .axisArrows _ _ | .axes _ _ | .axisNumbers _ _ _ => True

end Setting

/-- With a part that is present there is always a text. -/
theorem axisScript_ok {kind : Kind} {parts : List (String × Option String)} (h : ∃ p ∈ parts, p.2 ≠ none) :
    Succeeds (axisScript kind parts) := by
  unfold axisScript
  split
  · rename_i hnone
    obtain ⟨⟨name, part⟩, hp, hs⟩ := h
    rw [List.filterMap_eq_nil_iff] at hnone
    exact absurd (Option.map_eq_none_iff.mp (hnone _ hp)) hs
  · exact succeeds_ok _

section

variable {α : Type} {read : α → Except Fault (Option String)} {kind : Kind} {x y : α}

theorem axisParts_ok (h : read x ≠ .ok none ∨ read y ≠ .ok none) {parts : List (String × Option String)}
    (hp : axisParts read x y = .ok parts) : Succeeds (axisScript kind parts) := by
  simp only [axisParts, bind_eq_ok, pure_eq, Except.ok.injEq] at hp
  obtain ⟨a, ha, b, hb, rfl⟩ := hp
  refine axisScript_ok (h.elim (fun hx => ⟨("x", a), by simp, ?_⟩) fun hy => ⟨("y", b), by simp, ?_⟩)
  · rintro rfl
    exact hx ha
  · rintro rfl
    exact hy hb

theorem axisParts_succeeds (h : read x ≠ .ok none ∨ read y ≠ .ok none) :
    Succeeds (axisParts read x y >>= axisScript kind) ↔ Succeeds (read x) ∧ Succeeds (read y) := by
  rw [succeeds_bind, and_iff_left fun _ => axisParts_ok h]
  simp only [axisParts, succeeds_bind, pure_eq, succeeds_ok, implies_true, and_true, succeeds_and_forall]

theorem axisParts_misfit (h : read x ≠ .ok none ∨ read y ≠ .ok none) (hr : ∀ a, FailsWith Fault.IsMisfit (read a)) :
    FailsWith Fault.IsMisfit (axisParts read x y >>= axisScript kind) := by
  refine failsWith_bind.mpr ⟨?_, fun parts hp => ?_⟩
  · simp [axisParts, failsWith_bind, hr]
  · have hs : Succeeds (axisScript kind parts) := axisParts_ok h hp
    obtain ⟨t, ht⟩ := hs
    rw [ht]
    exact failsWith_ok _

end

theorem present_ne_none {α : Type} {f : Json → Except Fault α} {j : Json} (h : j ≠ .null) :
    j.present f ≠ .ok none := by
  intro he
  rcases present_eq_ok.mp he with ⟨hn, -⟩ | ⟨-, _, -, ha⟩
  · exact h hn
  · cases ha

theorem NumberInterval.script_succeeds (i : NumberInterval) : Succeeds i.script ↔ i.Writable := by
  simp only [script, succeeds_bind, pure_eq, succeeds_ok, implies_true, and_true, succeeds_and_forall]
  simp only [numberScript_succeeds, Writable]

theorem NumberInterval.script_misfit (i : NumberInterval) : FailsWith Fault.IsMisfit i.script := by
  simp [script, failsWith_bind, numberScript_misfit]

/-- The reading of an interval that may be absent. -/
def NumberInterval.partScript : Option NumberInterval → Except Fault (Option String)
  | none => .ok none
  | some i => i.script.map some

theorem NumberInterval.partScript_ne_none {x : Option NumberInterval} (h : x ≠ none) : partScript x ≠ .ok none := by
  cases x with
  | none => exact absurd rfl h
  | some i =>
    intro he
    obtain ⟨_, -, ha⟩ := map_eq_ok.mp he
    cases ha

theorem NumberInterval.partScript_succeeds (x : Option NumberInterval) :
    Succeeds (partScript x) ↔ ∀ i ∈ x, i.Writable := by
  cases x <;> simp [partScript, script_succeeds]

theorem NumberInterval.partScript_misfit (x : Option NumberInterval) : FailsWith Fault.IsMisfit (partScript x) := by
  cases x <;> simp [partScript, script_misfit]

namespace Setting

variable {s : Setting}

theorem viewport_body (x y : Option NumberInterval) :
    (viewport x y).body = axisParts NumberInterval.partScript x y >>= axisScript .viewport := by
  cases x <;> cases y <;> rfl

theorem body_succeeds (h : s.Populated) : Succeeds s.body ↔ s.Writable := by
  cases s with
  | seed value => exact stringScript_succeeds
  | flags words => simp only [body, succeeds_map, succeeds_mapM, Flag.script_succeeds, Writable]
  | viewport x y =>
    rw [viewport_body, axisParts_succeeds (h.imp NumberInterval.partScript_ne_none NumberInterval.partScript_ne_none)]
    simp only [NumberInterval.partScript_succeeds, Writable]
  | minorSubdivisions x y | axisSteps x y =>
    refine (axisParts_succeeds (h.imp present_ne_none present_ne_none)).trans ?_
    simp only [present_succeeds fun _ => numberScript_succeeds, Writable]
  | axisLabels x y =>
    refine (axisParts_succeeds (h.imp present_ne_none present_ne_none)).trans ?_
    simp only [present_succeeds fun _ => stringScript_succeeds, Writable]
  | axisArrows x y | axes x y | axisNumbers x y polar =>
    exact iff_of_true (axisScript_ok (by simpa [Populated] using h)) trivial

theorem body_misfit (h : s.Populated) : FailsWith Fault.IsMisfit s.body := by
  cases s with
  | seed value => exact stringScript_misfit value
  | flags words => exact failsWith_map.mpr (.mapM fun f _ => f.script_misfit)
  | viewport x y =>
    rw [viewport_body]
    exact axisParts_misfit (h.imp NumberInterval.partScript_ne_none NumberInterval.partScript_ne_none)
      NumberInterval.partScript_misfit
  | minorSubdivisions x y | axisSteps x y =>
    exact axisParts_misfit (h.imp present_ne_none present_ne_none) (present_failsWith numberScript_misfit)
  | axisLabels x y =>
    exact axisParts_misfit (h.imp present_ne_none present_ne_none) (present_failsWith stringScript_misfit)
  | axisArrows x y | axes x y | axisNumbers x y polar =>
    obtain ⟨t, ht⟩ := (body_succeeds h).mpr trivial
    rw [ht]
    exact failsWith_ok _

theorem script_succeeds (h : s.Populated) : Succeeds s.script ↔ s.Writable := succeeds_map.trans (body_succeeds h)

theorem script_misfit (h : s.Populated) : FailsWith Fault.IsMisfit s.script := failsWith_map.mpr (body_misfit h)

end Setting

/-! ## Programs -/

def Line.Writable : Line → Prop
  | .setting s => s.Writable
  | .item i => i.Writable Affix.Writable

def Program.Writable (p : Program) : Prop := ∀ l ∈ p.lines, l.Writable

/-- Every setting of the program has a part to show. -/
def Program.Populated (p : Program) : Prop := ∀ s ∈ p.settings, s.Populated

theorem Program.mem_settings {p : Program} {s : Setting} : s ∈ p.settings ↔ .setting s ∈ p.lines := by
  simp only [settings, List.mem_filterMap]
  constructor
  · rintro ⟨l, hl, h⟩
    cases l with
    | setting _ =>
      cases h
      exact hl
    | item _ => cases h
  · exact fun h => ⟨_, h, rfl⟩

theorem Program.script_succeeds {p : Program} (h : p.Populated) : Succeeds p.script ↔ p.Writable := by
  rw [script, succeeds_map, succeeds_mapM]
  refine forall₂_congr fun l hl => ?_
  cases l with
  | setting s => exact Setting.script_succeeds (h s (mem_settings.mpr hl))
  | item i => exact i.scriptWith_succeeds (Affix.script_succeeds "") ""

theorem Program.script_misfit {p : Program} (h : p.Populated) : FailsWith Fault.IsMisfit p.script := by
  refine failsWith_map.mpr (.mapM fun l hl => ?_)
  cases l with
  | setting s => exact Setting.script_misfit (h s (mem_settings.mpr hl))
  | item i => exact i.scriptWith_misfit (Affix.script_misfit "") ""

end GraphScript
