/-
  GraphScript.Proofs.State.Readable — which items can be translated.

  A translation asks for nothing but a type and an id; of every other field it asks that its value
  be of one sort (`Demand`). The value is looked up along a path of keys, and a key that is missing
  on the way gives null. So an item is translated exactly when it is an object of a known type with
  an id and meets the demands on its kind.

  - `Item.ofJson_succeeds`, `Column.ofJson_succeeds`, `ClickableRule.ofJson_succeeds`.
-/
import GraphScript.Proofs.Items

namespace GraphScript

open Faults

/-! ## Demands -/

/-- What is asked of the value at the end of a path of keys. -/
structure Demand where
  path : List String
  sort : Json → Prop

namespace Json

/-- The value at the end of a path of keys. -/
def along (j : Json) (path : List String) : Json := path.foldl valueOf j

@[simp] theorem along_nil (j : Json) : j.along [] = j := rfl

@[simp] theorem along_cons (j : Json) (key : String) (path : List String) :
    j.along (key :: path) = (j.valueOf key).along path := rfl

@[simp] theorem valueOf_obj (fs : Fields) (key : String) : (Json.obj fs).valueOf key = fs.get key := rfl

@[simp] theorem get_entries (j : Json) (key : String) : j.entries.get key = j.valueOf key := by
  cases j <;> rfl

theorem hasKey_iff {j : Json} {key : String} : j.HasKey key ↔ (j.entries.lookup key).isSome = true := by
  cases j <;> simp [HasKey, entries, Option.isSome_iff_exists]

instance (j : Json) (key : String) : Decidable (j.HasKey key) := decidable_of_iff _ hasKey_iff.symm

theorem hasKey_of_ne_null {j : Json} {key : String} (h : j.valueOf key ≠ .null) : j.HasKey key := by
  cases j with
  | obj fs =>
    cases hv : fs.lookup key with
    | none => exact absurd (by rw [valueOf_obj, Fields.get, hv]; rfl) h
    | some v => exact ⟨fs, v, rfl, hv⟩
  | _ => exact absurd rfl h

/-- What comes behind a field that must be there sees its value. -/
theorem need_and_forall {j : Json} {key : String} {P : Json → Prop} :
    (Succeeds (j.need key) ∧ ∀ v, j.need key = .ok v → P v) ↔ j.HasKey key ∧ P (j.valueOf key) := by
  rw [need_succeeds]
  refine and_congr_right fun h => ?_
  obtain ⟨fs, v, rfl, hv⟩ := h
  simp [need, hv, Fields.get]

/-- The members of a list; no other value has any here. -/
def elements : Json → List Json
  | .arr js => js
  | _ => []

def Meets (j : Json) (demands : List Demand) : Prop := ∀ d ∈ demands, d.sort (j.along d.path)

@[simp] theorem meets_nil (j : Json) : j.Meets [] := nofun

@[simp] theorem meets_cons (j : Json) (d : Demand) (ds : List Demand) :
    j.Meets (d :: ds) ↔ d.sort (j.along d.path) ∧ j.Meets ds := List.forall_mem_cons

@[simp] theorem meets_append (j : Json) (ds ds' : List Demand) : j.Meets (ds ++ ds') ↔ j.Meets ds ∧ j.Meets ds' :=
  List.forall_mem_append

end Json

open Json

/-- Expressions that may be missing in the object at the end of a path. -/
def Demand.expressions (path keys : List String) : List Demand :=
  keys.map fun key => ⟨path ++ [key], NullOr IsExpression⟩

theorem succeeds_unless {α : Type} {absent : Bool} {x : Except Fault (Option α)} {P : Prop} (ha : absent = true → P)
    (hx : Succeeds x ↔ P) : Succeeds (if absent then .ok none else x) ↔ P := by
  cases absent with
  | true => simpa using ha rfl
  | false => exact hx

/-! ## Styling -/

def stylingDemands : List Demand :=
  Demand.expressions [] ["pointOpacity", "pointSize", "lineOpacity", "lineWidth", "fillOpacity", "colorLatex"]
    ++ [⟨["dragMode"], IsMode⟩]

namespace Json.Fields

theorem not_has {fs : Fields} {key : String} : (!fs.has key) = true ↔ fs.get key = .null := by
  rw [has, Bool.not_not, isNull_iff]

/-- A group of two expressions, there if it has flags or one of the two. -/
theorem pair_succeeds {flags : List Flag} {group : Option Latex → Option Latex → OptionGroup} (fs : Fields)
    (first second : String) :
    Succeeds (if flags.isEmpty && !fs.has first && !fs.has second then (.ok none : Except Fault (Option OptionGroup))
      else do return some (group (← fs.latex first) (← fs.latex second))) ↔
      (Json.obj fs).Meets (Demand.expressions [] [first, second]) := by
  refine succeeds_unless (fun h => ?_) ?_
  · simp only [Bool.and_eq_true, not_has] at h
    simp [Demand.expressions, NullOr, h.1.2, h.2]
  · simp only [succeeds_bind, pure_eq, succeeds_ok, implies_true, and_true, succeeds_and_forall]
    simp [latex_succeeds, Demand.expressions]

/-- A group of one expression, there if it has that or another value. -/
theorem single_succeeds {group : Option Latex → OptionGroup} (fs : Fields) (value expression : String) :
    Succeeds (if !fs.has value && !fs.has expression then (.ok none : Except Fault (Option OptionGroup))
      else do return some (group (← fs.latex expression))) ↔
      (Json.obj fs).Meets (Demand.expressions [] [expression]) := by
  refine succeeds_unless (fun h => ?_) ?_
  · simp only [Bool.and_eq_true, not_has] at h
    simp [Demand.expressions, NullOr, h.2]
  · simp [succeeds_bind, latex_succeeds, Demand.expressions]

theorem drag_succeeds (fs : Fields) : Succeeds fs.drag ↔ (fs.get "dragMode").IsMode := by
  simp [drag, succeeds_bind, lookupIn_succeeds]

theorem styling_succeeds (fs : Fields) : Succeeds fs.styling ↔ (Json.obj fs).Meets stylingDemands := by
  have hpoints : Succeeds fs.points ↔ _ := pair_succeeds fs "pointOpacity" "pointSize"
  have hlines : Succeeds fs.lines ↔ _ := pair_succeeds fs "lineOpacity" "lineWidth"
  have hfill : Succeeds fs.fill ↔ _ := single_succeeds fs "fill" "fillOpacity"
  have hcolor : Succeeds fs.color ↔ _ := single_succeeds fs "color" "colorLatex"
  simp only [styling, succeeds_bind, pure_eq, succeeds_ok, implies_true, and_true, succeeds_and_forall]
  rw [hpoints, hlines, hfill, hcolor, drag_succeeds]
  simp [stylingDemands, Demand.expressions, and_assoc]

end Json.Fields

/-! ## Expressions -/

def ruleDemands : List Demand := [⟨["assignment"], FalsyOr IsExpression⟩, ⟨["expression"], FalsyOr IsExpression⟩]

def IsRule (j : Json) : Prop := j.IsObject ∧ j.Meets ruleDemands

/-- Bounds that may be missing in the object at the end of a path. -/
def Demand.bounds (path : List String) : List Demand := Demand.expressions path ["min", "max", "step"]

def expressionDemands : List Demand :=
  [⟨["clickableInfo"], FalsyOr IsObject⟩, ⟨["clickableInfo", "rules"], NullOr (Yields IsRule)⟩,
    ⟨["regressionParameters"], FalsyOr IsObject⟩, ⟨["residualVariable"], FalsyOr IsExpression⟩,
    ⟨["slider"], FalsyOr IsObject⟩, ⟨["slider", "loopMode"], IsMode⟩]
    ++ Demand.bounds ["slider"] ++ Demand.expressions ["slider"] ["animationPeriod"]
    ++ ⟨["polarDomain"], NullOr IsObject⟩ :: Demand.bounds ["polarDomain"]
    ++ ⟨["domain"], NullOr IsObject⟩ :: Demand.bounds ["domain"]
    ++ ⟨["cdf"], FalsyOr IsObject⟩ :: Demand.bounds ["cdf"]
    ++ ⟨["editableLabelMode"], IsMode⟩ :: Demand.expressions [] ["labelSize", "labelAngle"]
    ++ ⟨["vizProps"], FalsyOr IsObject⟩ :: Demand.expressions ["vizProps"] ["breadth", "axisOffset"]

theorem ClickableRule.ofJson_succeeds (j : Json) : Succeeds (ClickableRule.ofJson j) ↔ IsRule j := by
  have hside : ∀ (fs : Json.Fields) (key : String),
      Succeeds (if fs.truthy key then (fs.get key).latex else .ok ⟨""⟩) ↔ FalsyOr IsExpression (fs.get key) := by
    intro fs key
    rw [Json.Fields.truthy, FalsyOr]
    split
    · rename_i ht
      simp [Json.latex_succeeds, ht]
    · rename_i ht
      simp [ht]
  cases j with
  | obj fs =>
    simp only [ClickableRule.ofJson, fields, ok_bind, succeeds_bind, pure_eq, succeeds_ok, implies_true, and_true,
      succeeds_and_forall]
    rw [hside, hside]
    simp [IsRule, IsObject, ruleDemands]
  | _ => simp [ClickableRule.ofJson, fields, IsRule, IsObject]

theorem rulesOf_succeeds (members : List Json) : Succeeds (rulesOf members) ↔ ∀ m ∈ members, IsRule m := by
  simp only [rulesOf, succeeds_mapM, ClickableRule.ofJson_succeeds]

namespace Json.Fields

theorem clickableRules_succeeds (info : Fields) :
    Succeeds info.clickableRules ↔ NullOr (Yields IsRule) (info.get "rules") := by
  unfold clickableRules
  by_cases hr : info.get "rules" = .null
  · simp [has, hr, isNull, NullOr]
  · have hh : info.has "rules" = true := has_iff.mpr hr
    have hrules : ∀ members, Succeeds (do
        let rules ← rulesOf members
        return some (OptionGroup.clickableRules rules (flagIf (!info.truthy "enabled") .disabled))) ↔
        (∀ m ∈ members, IsRule m) ∧ True := by
      simp [succeeds_bind, rulesOf_succeeds]
    rw [if_pos hh, succeeds_members hrules]
    simp [NullOr, hr]

theorem regression_succeeds (fs : Fields) : Succeeds fs.regression ↔
    FalsyOr IsObject (fs.get "regressionParameters") ∧ FalsyOr IsExpression (fs.get "residualVariable") := by
  refine succeeds_unless (fun h => ?_) ?_
  · simp only [truthy, Bool.and_eq_true, Bool.not_eq_true'] at h
    simp [FalsyOr, h.1.1, h.1.2]
  · rw [succeeds_nested]
    refine and_congr_right fun _ => ?_
    by_cases ht : (fs.get "residualVariable").truthy = true
    · simp [truthy, ht, succeeds_bind, Json.latex_succeeds, FalsyOr]
    · simp [truthy, ht, FalsyOr]

theorem slider_succeeds (fs : Fields) : Succeeds fs.slider ↔ (Json.obj fs).Meets
    ([⟨["slider"], FalsyOr IsObject⟩, ⟨["slider", "loopMode"], IsMode⟩] ++ Demand.bounds ["slider"]
      ++ Demand.expressions ["slider"] ["animationPeriod"]) := by
  rw [slider, succeeds_nested]
  simp only [succeeds_bind, apply_ite, pure_eq, succeeds_ok, ite_self, implies_true, and_true, succeeds_and_forall]
  simp [lookupIn_succeeds, interval_succeeds, latex_succeeds, Demand.bounds, Demand.expressions, and_assoc]

theorem bounds_succeed (fs : Fields) (key : String) (group : Interval → OptionGroup) :
    Succeeds (if fs.has key then do return some (group (← (← (fs.get key).fields).interval))
      else (.ok none : Except Fault (Option OptionGroup))) ↔
      (Json.obj fs).Meets (⟨[key], NullOr IsObject⟩ :: Demand.bounds [key]) := by
  by_cases hk : fs.get key = .null
  · simp [has, hk, isNull, Demand.bounds, Demand.expressions, NullOr, valueOf]
  · rw [if_pos (has_iff.mpr hk)]
    simp only [Json.meets_cons, Json.along_cons, Json.along_nil, valueOf_obj, NullOr, hk, false_or]
    cases hv : fs.get key with
    | obj d =>
      simp only [fields, ok_bind, succeeds_bind, pure_eq, succeeds_ok, implies_true, and_true]
      simp [interval_succeeds, Demand.bounds, Demand.expressions, IsObject, hv]
    | _ => simp [fields, IsObject]

theorem cdf_succeeds (fs : Fields) :
    Succeeds fs.cdf ↔ (Json.obj fs).Meets (⟨["cdf"], FalsyOr IsObject⟩ :: Demand.bounds ["cdf"]) := by
  rw [cdf, succeeds_nested]
  simp only [succeeds_bind, apply_ite, pure_eq, succeeds_ok, ite_self, implies_true, and_true]
  simp [interval_succeeds, Demand.bounds, Demand.expressions]

theorem label_succeeds (fs : Fields) : Succeeds fs.label ↔ (Json.obj fs).Meets
    (⟨["editableLabelMode"], IsMode⟩ :: Demand.expressions [] ["labelSize", "labelAngle"]) := by
  simp only [label, succeeds_bind, apply_ite, pure_eq, succeeds_ok, ite_self, implies_true, and_true,
    succeeds_and_forall]
  simp [lookupIn_succeeds, latex_succeeds, Demand.expressions]

theorem boxplot_succeeds (viz : Fields) :
    Succeeds viz.boxplot ↔ (Json.obj viz).Meets (Demand.expressions [] ["breadth", "axisOffset"]) :=
  pair_succeeds viz "breadth" "axisOffset"

theorem expressionGroups_succeeds (fs : Fields) :
    Succeeds fs.expressionGroups ↔ (Json.obj fs).Meets expressionDemands := by
  have hpolar : Succeeds fs.polarDomain ↔ _ := bounds_succeed fs "polarDomain" .polarDomain
  have hdomain : Succeeds fs.domain ↔ _ := bounds_succeed fs "domain" .domain
  simp only [expressionGroups, succeeds_bind, pure_eq, succeeds_ok, implies_true, and_true, succeeds_and_forall,
    nested_and_forall]
  rw [clickableRules_succeeds, regression_succeeds, slider_succeeds, hpolar, hdomain, cdf_succeeds, label_succeeds,
    boxplot_succeeds]
  simp [expressionDemands, Demand.bounds, Demand.expressions, and_assoc]

end Json.Fields

/-! ## Columns and items -/

def columnDemands : List Demand :=
  ⟨["values"], FalsyOr (Yields IsExpression)⟩ :: Demand.expressions [] ["latex"] ++ stylingDemands

def IsColumn (j : Json) : Prop := j.IsObject ∧ j.Meets columnDemands

theorem Column.ofJson_succeeds (j : Json) : Succeeds (Column.ofJson j) ↔ IsColumn j := by
  cases j with
  | obj fs =>
    have hrest : ∀ members, Succeeds (do
        let values ← List.mapM Json.latex members
        let header ← Json.Fields.latex fs "latex"
        return Column.mk values header (smallFlagIf (Json.Fields.truthy fs "hidden") .hidden)
          (← Json.Fields.styling fs)) ↔
        (∀ m ∈ members, IsExpression m) ∧ (Json.obj fs).Meets (Demand.expressions [] ["latex"] ++ stylingDemands) := by
      intro members
      simp only [succeeds_bind, pure_eq, succeeds_ok, implies_true, and_true, succeeds_and_forall]
      simp [succeeds_mapM, Json.latex_succeeds, Json.Fields.latex_succeeds, Json.Fields.styling_succeeds,
        Demand.expressions]
    have hsplit : Succeeds (Column.ofJson (.obj fs)) ↔ _ := succeeds_membersIfAny hrest
    rw [hsplit]
    simp [IsColumn, IsObject, columnDemands]
  | _ => simp [Column.ofJson, fields, IsColumn, IsObject]

namespace ItemKind

/-- The demands on items of this kind alone. -/
def demands : ItemKind → List Demand
  | .folder | .text => []
  | .table => [⟨["columns"], FalsyOr (Yields IsColumn)⟩]
  | .simulation => [⟨["clickableInfo"], FalsyOr IsObject⟩, ⟨["clickableInfo", "rules"], FalsyOr (Yields IsRule)⟩]
    ++ Demand.expressions [] ["fps"]
  | .expression => Demand.expressions [] ["latex"] ++ expressionDemands
  | .image => Demand.expressions [] ["width", "height", "center", "angle", "opacity"]

theorem affix_and_groups_succeed (fs : Json.Fields) (kind : ItemKind) :
    Succeeds (kind.affix fs) ∧ Succeeds (kind.groups fs) ↔ (Json.obj fs).Meets kind.demands := by
  cases kind with
  | folder | text => simp [affix, groups, demands]
  | table =>
    have hcolumns : Succeeds (affix fs .table) ↔ FalsyOr (Yields IsColumn) (fs.get "columns") ∧ True :=
      succeeds_membersIfAny fun members => by simp [succeeds_bind, succeeds_mapM, Column.ofJson_succeeds]
    simp [hcolumns, groups, demands]
  | simulation =>
    have hrules : ∀ info : Json.Fields, Succeeds (do
        return Affix.leaf (.simulation (← rulesOf (← (info.get "rules").membersIfAny)))) ↔
        FalsyOr (Yields IsRule) (info.get "rules") ∧ True :=
      fun info => succeeds_membersIfAny fun members => by simp [succeeds_bind, rulesOf_succeeds]
    have haffix : Succeeds (affix fs .simulation) ↔ _ := succeeds_nested
    rw [haffix, hrules]
    simp [groups, succeeds_bind, Json.Fields.latex_succeeds, demands, Demand.expressions, and_assoc]
  | expression =>
    simp [affix, groups, succeeds_bind, Json.Fields.latex_succeeds, Json.Fields.expressionGroups_succeeds, demands,
      Demand.expressions]
  | image =>
    simp only [affix, groups, geometry, succeeds_bind, apply_ite, pure_eq, succeeds_ok, ite_self, implies_true, and_true,
      true_and, succeeds_and_forall]
    simp [Json.Fields.latex_succeeds, demands, Demand.expressions]

end ItemKind

/-- An item of a known type with an id that meets the demands on its kind. -/
def IsItem (j : Json) : Prop :=
  j.HasKey "id" ∧ ∃ kind, ItemKind.ofJson? (j.valueOf "type") = some kind ∧ j.Meets (stylingDemands ++ kind.demands)

theorem Item.ofJson_succeeds (j : Json) : Succeeds (Item.ofJson j) ↔ IsItem j := by
  cases j with
  | obj fs =>
    cases hk : ItemKind.ofJson? (Json.Fields.get fs "type") with
    | none =>
      simp only [Item.ofJson, fields, ok_bind, hk, succeeds_bind, throw_eq, not_succeeds_error, succeeds_and_forall]
      simp [IsItem, hk]
    | some kind =>
      simp only [Item.ofJson, fields, ok_bind, hk, succeeds_bind, pure_eq, succeeds_ok, implies_true, and_true,
        succeeds_and_forall]
      rw [need_succeeds, Json.Fields.styling_succeeds, ItemKind.affix_and_groups_succeed]
      simp [IsItem, hk]
  | _ => simp [Item.ofJson, fields, IsItem, HasKey]

/-- The items of a document, where they are a list. -/
def itemsOf (state : Json) : List Json := (state.along ["expressions", "list"]).elements

end GraphScript
