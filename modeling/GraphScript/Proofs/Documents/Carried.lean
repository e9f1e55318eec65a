/-
  GraphScript.Proofs.Documents.Carried — the values that a program carries are parts of its document.

  What a program carries unread is a value of the document, a part of one, or an empty text. So a
  property that parts of a value have with it (`Inherited`) holds of all that is carried, if it holds
  of the document. Where something carried could be taken for a word it is not one: flags are words,
  except in a histogram mode, where they are values of the document.

  - `translate_faithful`
-/
import GraphScript.Proofs.Documents.Parts
import GraphScript.Proofs.Folders.Conservation
import GraphScript.Proofs.State.Flags

namespace GraphScript

open Faults Json

/-! ## Parts of values -/

/-- Parts of a value have this property with it, and so do null and all texts. -/
structure Inherited (P : Json → Prop) : Prop where
  null : P .null
  text (s : String) : P (.str s)
  member {members : List Json} : P (.arr members) → ∀ x ∈ members, P x
  field {fields : Json.Fields} : P (.obj fields) → ∀ f ∈ fields, P f.2

theorem inherited_true : Inherited fun _ => True :=
  ⟨trivial, fun _ => trivial, fun _ _ _ => trivial, fun _ _ _ => trivial⟩

namespace Inherited

variable {P : Json → Prop} (hP : Inherited P)

include hP

theorem get {fs : Json.Fields} (hfs : ∀ f ∈ fs, P f.2) (key : String) : P (fs.get key) := by
  unfold Fields.get
  cases hv : fs.lookup key with
  | none => exact hP.null
  | some v =>
    obtain ⟨before, after, rfl, -⟩ := List.lookup_eq_some_iff.mp hv
    exact hfs (key, v) (by simp)

theorem entries {j : Json} (hj : P j) : ∀ f ∈ j.entries, P f.2 := by
  cases j with
  | obj fs => exact hP.field hj
  | _ => exact nofun

theorem valueOf {j : Json} (hj : P j) (key : String) : P (j.valueOf key) := by
  cases j with
  | obj fs => exact hP.get (hP.field hj) key
  | _ => exact hP.null

theorem orNull {j : Json} (hj : P j) : P j.orNull := by
  unfold Json.orNull
  split
  · exact hj
  · exact hP.null

theorem membersIfAny {j : Json} (hj : P j) : Ensures (fun members => ∀ m ∈ members, P m) j.membersIfAny := by
  unfold Json.membersIfAny
  split
  · cases j with
    | arr members => exact ensures_ok.mpr (hP.member hj)
    | str s => exact ensures_ok.mpr (List.forall_mem_map.mpr fun _ _ => hP.text _)
    | obj fields => exact ensures_ok.mpr (List.forall_mem_map.mpr fun _ _ => hP.text _)
    | _ => exact ensures_error _
  · exact ensures_ok.mpr nofun

end Inherited

/-! ## What programs carry -/

section

variable (P : Json → Prop)

/-- The values that a group carries are like this. -/
def OptionGroup.Carries : OptionGroup → Prop
  | .color value _ | .label value _ _ _ | .clickableLabel value | .name value => P value
  | .regression parameters _ _ => ∀ p ∈ parameters, P p.value
  | .histogramMode flags => ∀ f ∈ flags, ∃ v, f = .given v ∧ P v
  | _ => True

/-- The group has its own words, and the values that it carries are like this. -/
def OptionGroup.Faithful (g : OptionGroup) : Prop := g.Worded ∧ g.Carries P

def Column.Faithful (c : Column) : Prop := ∀ g ∈ c.options, g.Faithful P

def Leaf.Faithful : Leaf → Prop
  | .table columns => ∀ c ∈ columns, c.Faithful P
  | .image value | .note value => P value
  | .simulation _ | .expression _ => True

def Item.Faithful {α : Type} (affix : α → Prop) (i : Item α) : Prop := affix i.affix ∧ ∀ g ∈ i.options, g.Faithful P

def Folder.Faithful (f : Folder) : Prop := P f.title ∧ ∀ i ∈ f.children, i.Faithful P (Leaf.Faithful P)

def Affix.Faithful : Affix → Prop
  | .leaf l => l.Faithful P
  | .folder f => f.Faithful P

def NumberInterval.Faithful (i : NumberInterval) : Prop := P i.start ∧ P i.stop

def Setting.Faithful : Setting → Prop
  | .seed value => P value
  | .flags words => ∀ f ∈ words, ∃ w, f = .word w
  | .viewport x y => (∀ i ∈ x, i.Faithful P) ∧ ∀ i ∈ y, i.Faithful P
  | .minorSubdivisions x y | .axisSteps x y | .axisLabels x y => P x ∧ P y
  | .axisArrows _ _ | .axes _ _ | .axisNumbers _ _ _ => True

def Line.Faithful : Line → Prop
  | .setting s => s.Faithful P
  | .item i => i.Faithful P (Affix.Faithful P)

/-- Flags of a program are words where words are due, and the values that it carries are like this. -/
def Program.Faithful (p : Program) : Prop := ∀ l ∈ p.lines, l.Faithful P

end

/-- Whatever the fields give carries values like theirs. -/
theorem Json.Fields.Gives.carries {P : Json → Prop} (hP : Inherited P) {fs : Json.Fields} (hfs : ∀ f ∈ fs, P f.2)
    {k : Kind} {g : OptionGroup} (h : fs.Gives k g) : g.Carries P := by
  have hget : ∀ key, P (fs.get key) := hP.get hfs
  cases h with
  | color | name => exact hget _
  | label => exact hP.orNull (hget _)
  | clickableLabel => exact hP.valueOf (hget _) _
  | regression => exact List.forall_mem_map.mpr (hP.entries (hget _))
  | histogramMode => exact List.forall_mem_singleton.mpr ⟨_, rfl, hP.valueOf (hget _) _⟩
  | _ => trivial

/-! ## Items -/

theorem Line.faithful_of_parts {P : Json → Prop} {l : Line} {i : Item Affix} (hl : l = .item i)
    (h : ∀ t ∈ l.parts, t.Faithful P (Affix.Faithful P)) : l.Faithful P := by
  obtain ⟨affix, smallFlags, options⟩ := i
  subst hl
  cases affix with
  | leaf leaf => exact h _ (List.mem_cons_self ..)
  | folder f =>
    obtain ⟨⟨htitle, -⟩, hoptions⟩ := h _ (List.mem_cons_self ..)
    refine ⟨⟨htitle, fun child hc => ?_⟩, hoptions⟩
    exact h child.ofLeaf (List.mem_cons_of_mem _ (List.mem_map_of_mem hc))

section

variable {P : Json → Prop} (hP : Inherited P)

include hP

theorem Column.ofJson_faithful {j : Json} (hj : P j) : Ensures (Column.Faithful P) (Column.ofJson j) := by
  intro c h g hg
  obtain ⟨fs, rfl, hgiven⟩ := Column.ofJson_given h
  obtain ⟨k, -, hgives⟩ := hgiven g hg
  exact ⟨hgives.worded, hgives.carries hP (hP.field hj)⟩

theorem ItemKind.affix_faithful {fs : Json.Fields} (hfs : ∀ f ∈ fs, P f.2) (kind : ItemKind) :
    Ensures (Affix.Faithful P) (kind.affix fs) := by
  cases kind with
  | folder => exact ensures_ok.mpr ⟨hP.get hfs _, nofun⟩
  | table =>
    simp only [affix, ensures_bind, pure_eq, ensures_ok]
    intro members hm columns hc
    have hmembers := hP.membersIfAny (hP.get hfs _) members hm
    intro c hcs
    obtain ⟨j, hj, hof⟩ := mem_of_mapM hc c hcs
    exact Column.ofJson_faithful hP (hmembers j hj) c hof
  | simulation => simp [affix, ensures_bind, Affix.Faithful, Leaf.Faithful]
  | expression => simp [affix, ensures_bind, Affix.Faithful, Leaf.Faithful]
  | image =>
    refine ensures_ok.mpr ?_
    show P (if _ then _ else _)
    split
    · exact hP.get hfs _
    · exact hP.text _
  | text => exact ensures_ok.mpr (hP.get hfs _)

theorem Item.ofJson_faithful {j : Json} (hj : P j) : Ensures (Item.Faithful P (Affix.Faithful P)) (Item.ofJson j) := by
  intro t h
  obtain ⟨fs, id, _, rfl, -, hgiven⟩ := Item.ofJson_given h
  have hfs := hP.field hj
  refine ⟨?_, fun g hg => ?_⟩
  · obtain ⟨_, _, _, kind, affix, _, hfields, -, -, ha, -, rfl⟩ := Item.ofJson_eq_ok h
    cases hfields
    exact ItemKind.affix_faithful hP hfs kind affix ha
  · rcases hgiven g hg with rfl | ⟨k, -, hgives⟩
    · exact ⟨fun _ => List.nil_sublist _, trivial⟩
    · exact ⟨hgives.worded, hgives.carries hP hfs⟩

theorem foldersOf_faithful {items : List Json} (hitems : ∀ j ∈ items, P j) :
    Ensures (fun lines => ∀ l ∈ lines, l.Faithful P) (foldersOf items).result := by
  intro lines h l hl
  obtain ⟨translated, ht⟩ := Walk.run_translates h
  obtain ⟨i, hi, -⟩ := foldersOf_items h l hl
  refine Line.faithful_of_parts hi fun t hpart => ?_
  have hmem : t ∈ translated := (foldersOf_perm ht h).mem_iff.mp (List.mem_flatMap.mpr ⟨l, hl, hpart⟩)
  obtain ⟨j, hj, hof⟩ := mem_of_mapM ht t hmem
  exact Item.ofJson_faithful hP (hitems j hj) t hof

/-! ## Settings -/

theorem Json.Fields.axisSettings_faithful {graph : Json.Fields} (hg : ∀ f ∈ graph, P f.2) :
    Ensures (fun axes => ∀ s ∈ axes, s.Faithful P) graph.axisSettings := by
  have hraw (setting : Json → Json → Setting) (h : ∀ v w, P v → P w → (setting v w).Faithful P) (x y : String) :
      ∀ s, graph.rawSetting setting x y = some s → s.Faithful P := by
    intro s hs
    unfold rawSetting at hs
    split at hs
    · cases hs
      exact h _ _ (hP.get hg x) (hP.get hg y)
    · cases hs
  simp only [axisSettings, arrowSetting, ensures_bind, bind_eq_ok, pure_eq, ensures_ok, List.forall_mem_filterMap, id]
  rintro arrows ⟨x, -, y, -, ha⟩ o ho s hs
  simp only [List.mem_cons, List.not_mem_nil, or_false] at ho
  rcases ho with rfl | rfl | rfl | rfl | rfl | rfl
  · exact hraw .minorSubdivisions (fun _ _ hv hw => ⟨hv, hw⟩) _ _ s hs
  · exact hraw .axisSteps (fun _ _ hv hw => ⟨hv, hw⟩) _ _ s hs
  · split at ha
    · cases ha
      cases hs
    · cases ha
      cases hs
      trivial
  · exact hraw .axisLabels (fun _ _ hv hw => ⟨hv, hw⟩) _ _ s hs
  · simp only [axesSetting] at hs
    split at hs
    · cases hs
    · cases hs
      trivial
  · simp only [numbersSetting] at hs
    split at hs
    · cases hs
    · cases hs
      trivial

theorem stateSettings_faithful {graphFlags : Bool} {fs : Json.Fields} (hfs : ∀ f ∈ fs, P f.2) :
    Ensures (fun settings => ∀ s ∈ settings, s.Faithful P) (stateSettings graphFlags fs) := by
  intro settings h
  obtain ⟨graph, axes, hg, ha, rfl⟩ := stateSettings_eq_ok h
  have hgraph : ∀ f ∈ graph, P f.2 := hP.field (hg ▸ hP.get hfs "graph")
  have hbound := hP.valueOf (hP.get hgraph "viewport")
  simp only [List.forall_mem_append, List.forall_mem_cons]
  refine ⟨⟨?_, fun s hs => ?_⟩, ?_, Json.Fields.axisSettings_faithful hP hgraph axes ha⟩
  · unfold seedOf
    split
    · exact nofun
    · exact List.forall_mem_singleton.mpr (hP.get hfs _)
  · obtain ⟨flags, rfl, hw⟩ := flagsOf_words hs
    exact hw
  · simp [viewportOf, Setting.Faithful, NumberInterval.Faithful, hbound]

/-! ## Documents -/

/-- A translated program has words where words are due, and what it carries has each property that parts of the
    document have with it. -/
theorem translate_faithful {graphFlags : Bool} {state : Json} (hstate : P state) :
    Ensures (Program.Faithful P) (translate graphFlags state).result := by
  intro p h
  obtain ⟨fs, settings, items, lines, rfl, -, hsettings, hitems, hl, rfl⟩ := translate_eq_ok.mp h
  have hfs := hP.field hstate
  obtain ⟨expressions, he, hi⟩ := bind_eq_ok.mp hitems
  obtain ⟨-, rfl⟩ := nested_eq_ok.mp he
  have hlist := hP.membersIfAny (hP.get (hP.entries (hP.get hfs "expressions")) "list") items hi
  refine List.forall_mem_append.mpr ⟨List.forall_mem_map.mpr ?_, foldersOf_faithful hP hlist lines hl⟩
  exact stateSettings_faithful hP hfs settings hsettings

end

end GraphScript
