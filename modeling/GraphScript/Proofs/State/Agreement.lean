/-
  GraphScript.Proofs.State.Agreement — fields count by their keys, and only if they are read.

  Every object of a document has keys that are read. Two objects agree if both have the same values
  of these keys, or none; values that are objects themselves, or lists of objects, need only agree
  in turn (`Fields.Agree`). The order of fields does not count, and nothing is asked of other keys.
  Where the values are compared as they are, fields that agree are those that are left when the
  others are dropped, in any order (`Fields.agree_iff_perm`).

  What is read of an item depends on its kind (`ItemKind.keys`, `ItemKind.rules`). An item of no known
  kind is read for its styling and its id alone, before it is refused.

  - `Item.ofJson_agree`: items that agree are translated alike, or have the same fault.
-/
import GraphScript.Proofs.State.Alike
import Mathlib.Data.List.Nodup
import Mathlib.Data.List.Perm.Lattice

namespace GraphScript

open Faults

namespace Json

/-! ## Agreement -/

/-- The same values of these keys, or none, and for other keys values that agree by a rule. -/
structure Fields.Agree (keys : List String) (rules : List (String × (Json → Json → Prop))) (fs gs : Fields) : Prop where
  same : ∀ key ∈ keys, gs.lookup key = fs.lookup key
  nested : ∀ rule ∈ rules, Option.Rel rule.2 (fs.lookup rule.1) (gs.lookup rule.1)

/-- The same value, or objects whose fields agree. -/
def AgreeOn (keys : List String) (rules : List (String × (Json → Json → Prop))) : Json → Json → Prop :=
  ObjectAlike (Fields.Agree keys rules)

section

variable {keys : List String} {rules : List (String × (Json → Json → Prop))} {fs gs : Fields} {key : String}
  {rule : Json → Json → Prop} {v w : Json}

theorem mem_iff_lookup (hf : (fs.map Prod.fst).Nodup) : (key, v) ∈ fs ↔ fs.lookup key = some v := by
  induction fs with
  | nil => exact iff_of_false List.not_mem_nil nofun
  | cons f rest ih =>
    obtain ⟨name, value⟩ := f
    rw [List.map_cons, List.nodup_cons] at hf
    rw [List.mem_cons, List.lookup_cons, Prod.mk.injEq]
    by_cases hkey : key = name
    · subst hkey
      have hrest : (key, v) ∉ rest := fun hmem => hf.1 (List.mem_map.mpr ⟨(key, v), hmem, rfl⟩)
      simp [hrest, eq_comm]
    · rw [beq_eq_false_iff_ne.mpr hkey]
      simp [hkey, ih hf.2]

/-- Objects agree on keys if the fields that have them are the same fields, in whatever order. -/
theorem Fields.agree_iff_perm (hf : (fs.map Prod.fst).Nodup) (hg : (gs.map Prod.fst).Nodup) :
    Agree keys [] fs gs ↔ (fs.filter (·.1 ∈ keys)).Perm (gs.filter (·.1 ∈ keys)) := by
  rw [List.perm_ext_iff_of_nodup ((List.Nodup.of_map _ hf).filter _) ((List.Nodup.of_map _ hg).filter _)]
  constructor
  · rintro ⟨hsame, -⟩ ⟨key, v⟩
    simp only [List.mem_filter, decide_eq_true_eq, mem_iff_lookup hf, mem_iff_lookup hg]
    exact and_congr_left fun hkey => by rw [hsame key hkey]
  · intro h
    refine ⟨fun key hkey => Option.ext fun v => ?_, nofun⟩
    have hmem := h (key, v)
    simp only [List.mem_filter, decide_eq_true_eq, mem_iff_lookup hf, mem_iff_lookup hg, hkey, and_true] at hmem
    exact hmem.symm

namespace Fields.Agree

theorem value (h : Agree keys rules fs gs) (hk : key ∈ keys) : gs.get key = fs.get key := by
  rw [Fields.get, Fields.get, h.same key hk]

theorem get (h : Agree keys rules fs gs) (hr : (key, rule) ∈ rules) (hnull : rule .null .null) :
    rule (fs.get key) (gs.get key) := by
  have hrel := h.nested _ hr
  rw [Fields.get, Fields.get]
  generalize fs.lookup key = x, gs.lookup key = y at hrel
  cases hrel with
  | none => exact hnull
  | some hvw => exact hvw

/-- A value that is the same looks the same in every way. -/
theorem alike (h : Agree keys rules fs gs) {whole expressions : List String}
    (hkeys : ∀ key ∈ whole ++ expressions, key ∈ keys) : Fields.Alike whole expressions fs gs where
  value key hk := h.value (hkeys key (List.mem_append_left _ hk))
  expression key hk := by
    rw [h.value (hkeys key (List.mem_append_right _ hk))]
    exact ⟨rfl, rfl⟩

end Fields.Agree

theorem AgreeOn.need (h : AgreeOn keys rules v w) (hk : key ∈ keys) : w.need key = v.need key := by
  rcases h with rfl | ⟨fs, gs, rfl, rfl, h⟩
  · rfl
  · rw [Json.need, Json.need, h.same key hk]

theorem ObjectAlike.mono {fields fields' : Fields → Fields → Prop} (h : ObjectAlike fields v w)
    (hf : ∀ fs gs, fields fs gs → fields' fs gs) : ObjectAlike fields' v w := by
  rcases h with rfl | ⟨fs, gs, rfl, rfl, h⟩
  · exact .inl rfl
  · exact .inr ⟨fs, gs, rfl, rfl, hf fs gs h⟩

theorem ListAlike.mono {member member' : Json → Json → Prop} (h : ListAlike member v w)
    (hm : ∀ v w, member v w → member' v w) : ListAlike member' v w := by
  rcases h with rfl | ⟨vs, ws, rfl, rfl, h⟩
  · exact .inl rfl
  · exact .inr ⟨vs, ws, rfl, rfl, h.imp hm⟩

end

/-! ## What is read -/

def stylingKeys : List String := stylingWhole ++ stylingExpressions

def columnKeys : List String := ["values", "latex", "hidden"] ++ stylingKeys

def ruleKeys : List String := ["id", "assignment", "expression"]

def sliderKeys : List String := ["loopMode", "hardMin", "hardMax", "playDirection", "animationPeriod"] ++ boundKeys

def vizKeys : List String := vizWhole ++ ["breadth", "axisOffset"]

/-- The rules of what can be clicked, one by one. -/
def clickRules : List (String × (Json → Json → Prop)) := [("rules", ListAlike (AgreeOn ruleKeys []))]

end Json

open Json

namespace ItemKind

/-- The keys that only items of this kind are read for. No folder lies in another one. -/
def keys : ItemKind → List String
  | .folder => ["title", "collapsed"]
  | .table => ["folderId"]
  | .simulation => ["folderId", "isPlaying", "fps"]
  | .expression => ["folderId", "latex", "regressionParameters", "residualVariable", "isLogModeRegression", "label",
      "labelSize", "labelAngle", "showLabel", "editableLabelMode", "interactiveLabel", "suppressTextOutline",
      "displayEvaluationAsFraction"]
  | .image => ["folderId", "image_url", "foreground", "draggable", "name", "width", "height", "center", "angle",
      "opacity"]
  | .text => ["folderId", "text"]

/-- The keys of items of this kind with objects or lists of objects, and what is read of those. -/
def rules : ItemKind → List (String × (Json → Json → Prop))
  | .table => [("columns", ListAlike (AgreeOn columnKeys []))]
  | .simulation => [("clickableInfo", AgreeOn [] clickRules)]
  | .expression => [("clickableInfo", AgreeOn ["description", "enabled"] clickRules), ("slider", AgreeOn sliderKeys []),
      ("polarDomain", AgreeOn boundKeys []), ("domain", AgreeOn boundKeys []),
      ("cdf", AgreeOn ("show" :: boundKeys) []), ("vizProps", AgreeOn vizKeys [])]
  | .folder | .image | .text => []

end ItemKind

/-- Items of one kind that agree on what is read of it. -/
structure ItemAgree (fs gs : Json.Fields) : Prop where
  shared : Fields.Agree ("type" :: "id" :: stylingKeys) [] fs gs
  own : ∀ kind, ItemKind.ofJson? (fs.get "type") = some kind →
    Fields.Agree ("secret" :: "hidden" :: kind.keys) kind.rules fs gs

/-! ## What agrees is alike -/

section

variable {fs gs : Json.Fields} {v w : Json} {keys : List String}

theorem RuleAlike.of_agree (h : Fields.Agree ruleKeys [] fs gs) : RuleAlike fs gs where
  id := h.value (by decide)
  side key hk := by
    have hkeys : ∀ key ∈ ["assignment", "expression"], key ∈ ruleKeys := by decide
    rw [h.value (hkeys key hk)]
    exact ⟨rfl, fun _ => rfl⟩

theorem ColumnAlike.of_agree (h : Fields.Agree columnKeys [] fs gs) : ColumnAlike fs gs where
  own := h.alike (by decide)
  values := .inl (h.value (by decide))

theorem rules_agree (h : Fields.Agree keys clickRules fs gs) :
    ListAlike (ObjectAlike RuleAlike) (fs.get "rules") (gs.get "rules") := by
  have hrules : ListAlike (AgreeOn ruleKeys []) (fs.get "rules") (gs.get "rules") :=
    h.get (List.mem_singleton_self _) (.inl rfl)
  exact hrules.mono fun _ _ h => ObjectAlike.mono h fun _ _ => RuleAlike.of_agree

theorem ClickableAlike.of_agree (h : Fields.Agree ["description", "enabled"] clickRules fs gs) :
    ClickableAlike fs gs where
  own := h.alike (by decide)
  rules := rules_agree h

/-- Under this key there are objects of which nothing but keys is read. -/
theorem Json.Fields.Agree.objects {rules : List (String × (Json → Json → Prop))} (h : Fields.Agree keys rules fs gs)
    (inner : List String) {key : String} (hr : (key, AgreeOn inner []) ∈ rules) {whole expressions : List String}
    (hkeys : ∀ key ∈ whole ++ expressions, key ∈ inner) :
    ObjectAlike (Fields.Alike whole expressions) (fs.get key) (gs.get key) :=
  ObjectAlike.mono (h.get hr (.inl rfl)) fun _ _ h => h.alike hkeys

theorem ExpressionItemAlike.of_agree
    (h : Fields.Agree ("secret" :: "hidden" :: ItemKind.expression.keys) ItemKind.expression.rules fs gs) :
    ExpressionItemAlike fs gs where
  own := h.alike (by decide)
  clickableInfo :=
    have hinfo : AgreeOn _ clickRules (fs.get "clickableInfo") (gs.get "clickableInfo") :=
      h.get (by simp [ItemKind.rules]) (.inl rfl)
    ObjectAlike.mono hinfo fun _ _ => ClickableAlike.of_agree
  residualVariable := by
    rw [h.value (by decide)]
    exact ⟨rfl, fun _ => rfl⟩
  slider := h.objects sliderKeys (by simp [ItemKind.rules]) (by decide)
  polarDomain := h.objects boundKeys (by simp [ItemKind.rules]) (by decide)
  domain := h.objects boundKeys (by simp [ItemKind.rules]) (by decide)
  cdf := h.objects ("show" :: boundKeys) (by simp [ItemKind.rules]) (by decide)
  vizProps := h.objects vizKeys (by simp [ItemKind.rules]) (by decide)

theorem ItemKind.alike_of_agree {kind : ItemKind}
    (h : Fields.Agree ("secret" :: "hidden" :: kind.keys) kind.rules fs gs) : kind.Alike fs gs := by
  cases kind with
  | folder | image | text => exact h.alike (by decide)
  | table =>
    have hcolumns : ListAlike (AgreeOn columnKeys []) (fs.get "columns") (gs.get "columns") :=
      h.get (List.mem_singleton_self _) (.inl rfl)
    exact hcolumns.mono fun _ _ h => ObjectAlike.mono h fun _ _ => ColumnAlike.of_agree
  | simulation =>
    have hinfo : AgreeOn [] clickRules (fs.get "clickableInfo") (gs.get "clickableInfo") :=
      h.get (List.mem_singleton_self _) (.inl rfl)
    exact ⟨h.alike (by decide), ObjectAlike.mono hinfo fun _ _ => rules_agree⟩
  | expression => exact ExpressionItemAlike.of_agree h

theorem ItemAlike.of_agree (h : ItemAgree fs gs) {kind : ItemKind}
    (hkind : ItemKind.ofJson? (fs.get "type") = some kind) : ItemAlike fs gs where
  id := h.shared.same "id" (by decide)
  shared := by
    have hown := h.own kind hkind
    have hshared : Fields.Alike ("type" :: stylingWhole) stylingExpressions fs gs := h.shared.alike (by decide)
    refine ⟨fun key hk => ?_, hshared.expression⟩
    rcases List.mem_cons.mp hk with rfl | hk
    · exact hshared.value "type" (List.mem_cons_self ..)
    · rcases List.mem_cons.mp hk with rfl | hk
      · exact hown.value (by simp)
      · rcases List.mem_cons.mp hk with rfl | hk
        · exact hown.value (by simp)
        · exact hshared.value key (List.mem_cons_of_mem _ hk)
  own kind' hkind' := ItemKind.alike_of_agree (h.own kind' hkind')

end

/-- Items that agree are translated alike, or have the same fault. -/
theorem Item.ofJson_agree {v w : Json} (h : ObjectAlike ItemAgree v w) : Item.ofJson w = Item.ofJson v := by
  rcases h with rfl | ⟨fs, gs, rfl, rfl, h⟩
  · rfl
  · cases hkind : ItemKind.ofJson? (Fields.get fs "type") with
    | some kind => exact Item.ofJson_alike (.inr ⟨fs, gs, rfl, rfl, .of_agree h hkind⟩)
    | none =>
      have hid : (Json.obj gs).need "id" = (Json.obj fs).need "id" := by
        rw [need, need, h.shared.same "id" (by decide)]
      have hstyling : Fields.styling gs = Fields.styling fs := (h.shared.alike (by decide)).styling
      have htype : Fields.get gs "type" = Fields.get fs "type" := h.shared.value (by decide)
      simp only [ofJson, fields, ok_bind, hid, hstyling, htype, hkind]

end GraphScript
