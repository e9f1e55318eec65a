/-
  GraphScript.Proofs.State.Spelling — a number and its text stand for the same expression.

  Where an expression is read, a number may be replaced by its text (`Respelt`), in any of the keys
  that hold expressions, at any depth, and all at once (`Within`, `Each`). The translation is the
  same, fault or not: a number is never seen but through its text.

  Sides of rules and the residuals of a regression are read if they are truthy, and a zero is not,
  while its text is. There a zero stands for the empty text (`RespeltIfTruthy`), not for its own
  (`a_zero_is_no_side_of_a_rule`).

  - `numbers_stand_for_their_texts`
-/
import GraphScript.Proofs.Json.Numbers
import GraphScript.Proofs.State.Alike

namespace GraphScript

open Faults

theorem Layout.decimal_ne_empty (l : Layout) (d : Decimal) : l.decimal d ≠ "" := by
  intro h
  replace h := congrArg String.toList h
  rw [decimal] at h
  split at h
  · unfold positional at h
    dsimp only at h
    split at h
    · simp at h
    · split at h
      · -- As many characters as stand before the point, and the point is not at the beginning.
        obtain ⟨hd, hz, -⟩ : d.digits = [] ∧ d.point.toNat - d.digits.length = 0 ∧ l.whole = "" := by
          simpa [zeros] using congrArg List.length h
        rw [hd, List.length_nil] at hz
        omega
      · simp at h
  · simp [scientific] at h

theorem Layout.script_ne_empty (x : Binary64) : script.text x ≠ "" := by
  cases x with
  | nan => decide
  | infinity negative => cases negative <;> decide
  | finite negative rank =>
    rw [text]
    split
    · cases negative <;> decide
    · exact fun h => decimal_ne_empty _ _ (String.append_eq_empty_iff.mp h).2

namespace Json

/-! ## Spelling -/

/-- The same value, or the text of a number. -/
def Respelt (v w : Json) : Prop := w = v ∨ w = v.spelt

/-- The same value, or the text of a number; the empty text for what is not truthy. -/
def RespeltIfTruthy (v w : Json) : Prop := w = v ∨ w = if v.truthy then v.spelt else .str ""

/-- The same keys in the same order, with values that go along. -/
def Fields.Within (rule : String → Json → Json → Prop) (fs gs : Fields) : Prop :=
  List.Forall₂ (fun f g => g.1 = f.1 ∧ rule f.1 f.2 g.2) fs gs

/-- Objects whose fields go along, or the same value. -/
def Within (rule : String → Json → Json → Prop) : Json → Json → Prop
  | .obj fs, .obj gs => Fields.Within rule fs gs
  | v, w => w = v

/-- Lists whose members go along one by one, or the same value. -/
def Each (rule : Json → Json → Prop) : Json → Json → Prop
  | .arr vs, .arr ws => List.Forall₂ rule vs ws
  | v, w => w = v

/-- Some keys have a rule of their own, some hold expressions, and the values of all others stay as they are. -/
def spelling (special : List (String × (Json → Json → Prop))) (expressions : List String) (key : String) (v w : Json) :
    Prop :=
  match special.lookup key with
  | some rule => rule v w
  | none => if key ∈ expressions then Respelt v w else w = v

/-! ## Where expressions stand -/

def boundsSpelling : String → Json → Json → Prop := spelling [] boundKeys

def ruleSpelling : String → Json → Json → Prop :=
  spelling [("assignment", RespeltIfTruthy), ("expression", RespeltIfTruthy)] []

def columnSpelling : String → Json → Json → Prop :=
  spelling [("values", Each Respelt)] ("latex" :: stylingExpressions)

def clickableSpelling : String → Json → Json → Prop := spelling [("rules", Each (Within ruleSpelling))] []

def itemSpelling : String → Json → Json → Prop :=
  spelling [("columns", Each (Within columnSpelling)), ("clickableInfo", Within clickableSpelling),
    ("residualVariable", RespeltIfTruthy), ("slider", Within (spelling [] ("animationPeriod" :: boundKeys))),
    ("polarDomain", Within boundsSpelling), ("domain", Within boundsSpelling), ("cdf", Within boundsSpelling),
    ("vizProps", Within (spelling [] ["breadth", "axisOffset"]))]
    (["latex", "labelSize", "labelAngle", "fps", "width", "height", "center", "angle", "opacity"] ++ stylingExpressions)

/-! ## What is respelt is alike -/

section

variable {v w : Json}

theorem Respelt.alike (h : Respelt v w) : ExpressionAlike v w := by
  rcases h with rfl | rfl
  · exact ⟨rfl, rfl⟩
  · unfold spelt
    cases hn : v.numberScript with
    | error e => exact ⟨rfl, rfl⟩
    | ok t =>
      cases v with
      | bool _ | int _ | float _ => exact ⟨rfl, congrArg (Except.map Latex.mk) hn.symm⟩
      | null | str _ | arr _ | obj _ => cases hn

/-- The text of a truthy number is truthy. -/
theorem truthy_spelt (ht : v.truthy = true) : v.spelt.truthy = true := by
  cases v with
  | null | str _ | arr _ | obj _ => exact ht
  | bool b =>
    obtain rfl : b = true := ht
    rfl
  | int n =>
    obtain ⟨c, rest, hc, -⟩ := int_opens n
    exact bne_iff_ne.mpr fun he : toString n = "" => by simp [he] at hc
  | float x => exact bne_iff_ne.mpr (Layout.script_ne_empty x)

theorem RespeltIfTruthy.alike (h : RespeltIfTruthy v w) : TruthyAlike v w := by
  rcases h with rfl | rfl
  · exact ⟨rfl, fun _ => rfl⟩
  · by_cases ht : v.truthy = true
    · rw [if_pos ht]
      exact ⟨(truthy_spelt ht).trans ht.symm, fun _ => (Respelt.alike (.inr rfl)).latex⟩
    · rw [if_neg ht]
      exact ⟨(Bool.not_eq_true _ ▸ ht : v.truthy = false).symm, fun h => absurd h ht⟩

theorem Within.alike {rule : String → Json → Json → Prop} {fields : Fields → Fields → Prop} (h : Within rule v w)
    (hf : ∀ fs gs, Fields.Within rule fs gs → fields fs gs) : ObjectAlike fields v w := by
  unfold Within at h
  split at h
  · exact .inr ⟨_, _, rfl, rfl, hf _ _ h⟩
  · exact .inl h

theorem Each.alike {rule member : Json → Json → Prop} (h : Each rule v w) (hm : ∀ v w, rule v w → member v w) :
    ListAlike member v w := by
  unfold Each at h
  split at h
  · exact .inr ⟨_, _, rfl, rfl, h.imp hm⟩
  · exact .inl h

end

section

variable {special : List (String × (Json → Json → Prop))} {expressions : List String} {key : String} {v w : Json}

theorem spelling_whole (hk : (special.lookup key).isNone) (he : key ∉ expressions) :
    spelling special expressions key v w ↔ w = v := by
  rw [spelling, Option.isNone_iff_eq_none.mp hk]
  simp only [he, if_false]

theorem spelling_expression (hk : (special.lookup key).isNone) (he : key ∈ expressions) :
    spelling special expressions key v w ↔ Respelt v w := by
  rw [spelling, Option.isNone_iff_eq_none.mp hk]
  simp only [he, if_true]

end

namespace Fields.Within

variable {special : List (String × (Json → Json → Prop))} {expressions : List String} {fs gs : Fields}
  {rule : String → Json → Json → Prop}

theorem lookup (h : Within rule fs gs) (key : String) :
    (fs.lookup key = none ∧ gs.lookup key = none) ∨
      ∃ v w, fs.lookup key = some v ∧ gs.lookup key = some w ∧ rule key v w := by
  induction h with
  | nil => exact .inl ⟨rfl, rfl⟩
  | @cons f g fs gs hfg _ ih =>
    obtain ⟨name, v⟩ := f
    obtain ⟨name', w⟩ := g
    obtain ⟨rfl, hvw⟩ := hfg
    by_cases hk : key = name'
    · subst hk
      exact .inr ⟨v, w, by simp, by simp, hvw⟩
    · rw [List.lookup_cons, List.lookup_cons, beq_eq_false_iff_ne.mpr hk]
      exact ih

theorem get (h : Within rule fs gs) {key : String} (hnull : rule key .null .null) :
    rule key (fs.get key) (gs.get key) := by
  rcases h.lookup key with ⟨hf, hg⟩ | ⟨v, w, hf, hg, hvw⟩
  · rw [Fields.get, Fields.get, hf, hg]
    exact hnull
  · rw [Fields.get, Fields.get, hf, hg]
    exact hvw

theorem own (h : Within (spelling special expressions) fs gs) (key : String) {rule : Json → Json → Prop}
    (hr : special.lookup key = some rule) (hnull : rule .null .null) : rule (fs.get key) (gs.get key) := by
  have hkey : ∀ v w, spelling special expressions key v w ↔ rule v w := fun v w => by rw [spelling, hr]
  exact (hkey _ _).mp (h.get ((hkey _ _).mpr hnull))

/-- Keys without a rule of their own. -/
theorem alike (h : Within (spelling special expressions) fs gs) {whole shared : List String}
    (hw : ∀ key ∈ whole, (special.lookup key).isNone ∧ key ∉ expressions)
    (hs : ∀ key ∈ shared, (special.lookup key).isNone ∧ key ∈ expressions) : Fields.Alike whole shared fs gs where
  value key hk :=
    (spelling_whole (hw key hk).1 (hw key hk).2).mp
      (h.get ((spelling_whole (hw key hk).1 (hw key hk).2).mpr rfl))
  expression key hk :=
    ((spelling_expression (hs key hk).1 (hs key hk).2).mp
      (h.get ((spelling_expression (hs key hk).1 (hs key hk).2).mpr (.inl rfl)))).alike

end Fields.Within

end Json

open Json

/-! ## Rules, columns and items -/

section

variable {fs gs : Json.Fields}

theorem RuleAlike.of_within (h : Fields.Within ruleSpelling fs gs) : RuleAlike fs gs where
  id :=
    have hid : Fields.Alike ["id"] [] fs gs := h.alike (by decide) (by decide)
    hid.value "id" (by decide)
  side := List.forall_mem_cons.mpr ⟨(h.own "assignment" rfl (.inl rfl)).alike,
    List.forall_mem_singleton.mpr (h.own "expression" rfl (.inl rfl)).alike⟩

theorem ColumnAlike.of_within (h : Fields.Within columnSpelling fs gs) : ColumnAlike fs gs where
  own := h.alike (by decide) (by decide)
  values := (h.own "values" rfl rfl).alike fun _ _ => Respelt.alike

theorem rules_alike {v w : Json} (h : Each (Within ruleSpelling) v w) : ListAlike (ObjectAlike RuleAlike) v w :=
  h.alike fun _ _ h => h.alike fun _ _ => RuleAlike.of_within

theorem ClickableAlike.of_within (h : Fields.Within clickableSpelling fs gs) : ClickableAlike fs gs where
  own := h.alike (by decide) (by decide)
  rules := rules_alike (h.own "rules" rfl rfl)

theorem interval_alike {v w : Json} (h : Within boundsSpelling v w) : ObjectAlike (Fields.Alike [] boundKeys) v w :=
  h.alike fun _ _ h => h.alike (by decide) (by decide)

theorem ExpressionItemAlike.of_within (h : Fields.Within itemSpelling fs gs) : ExpressionItemAlike fs gs where
  own := h.alike (by decide) (by decide)
  clickableInfo := (h.own "clickableInfo" rfl rfl).alike fun _ _ => ClickableAlike.of_within
  residualVariable := (h.own "residualVariable" rfl (.inl rfl)).alike
  slider := (h.own "slider" rfl rfl).alike fun _ _ h => h.alike (by decide) (by decide)
  polarDomain := interval_alike (h.own "polarDomain" rfl rfl)
  domain := interval_alike (h.own "domain" rfl rfl)
  cdf := (h.own "cdf" rfl rfl).alike fun _ _ h => h.alike (by decide) (by decide)
  vizProps := (h.own "vizProps" rfl rfl).alike fun _ _ h => h.alike (by decide) (by decide)

theorem SimulationAlike.of_within (h : Fields.Within itemSpelling fs gs) : SimulationAlike fs gs where
  own := h.alike (by decide) (by decide)
  clickableInfo := (h.own "clickableInfo" rfl rfl).alike fun _ _ h => rules_alike (h.own "rules" rfl rfl)

theorem ItemAlike.of_within (h : Fields.Within itemSpelling fs gs) : ItemAlike fs gs where
  id := by
    rcases h.lookup "id" with ⟨hf, hg⟩ | ⟨v, w, hf, hg, hvw⟩
    · rw [hf, hg]
    · rw [hf, hg, (spelling_whole (by decide) (by decide)).mp hvw]
  shared := h.alike (by decide) (by decide)
  own kind _ := by
    cases kind with
    | folder | image | text => exact h.alike (by decide) (by decide)
    | table => exact (h.own "columns" rfl rfl).alike fun _ _ h => h.alike fun _ _ => ColumnAlike.of_within
    | simulation => exact SimulationAlike.of_within h
    | expression => exact ExpressionItemAlike.of_within h

end

/-- A zero that is a side of a rule or the residuals of a regression is spelt as the empty text; every
other number that is read as an expression has the text it is written with. -/
theorem numbers_stand_for_their_texts (v w : Json) :
    (Within ruleSpelling v w → ClickableRule.ofJson w = ClickableRule.ofJson v) ∧
      (Within columnSpelling v w → Column.ofJson w = Column.ofJson v) ∧
        (Within itemSpelling v w → Item.ofJson w = Item.ofJson v) :=
  ⟨fun h => ClickableRule.ofJson_alike (h.alike fun _ _ => RuleAlike.of_within),
    fun h => Column.ofJson_alike (h.alike fun _ _ => ColumnAlike.of_within),
    fun h => Item.ofJson_alike (h.alike fun _ _ => ItemAlike.of_within)⟩

/-- A rule with a side that is zero, a column, and an expression with a slider and a zero that is no residual. -/
theorem numbers_of_a_rule_a_column_and_an_item_respelt :
    let rule := Json.obj [("assignment", .int 1), ("expression", .int 0)]
    let rule' := Json.obj [("assignment", .str "1"), ("expression", .str "")]
    let cells := Json.obj [("latex", .int 2), ("values", .arr [.int (-1), .str "a"])]
    let cells' := Json.obj [("latex", .str "2"), ("values", .arr [.str "-1", .str "a"])]
    let j := Json.obj [("type", .str "expression"), ("id", .int 3), ("residualVariable", .int 0),
      ("slider", .obj [("hardMin", .int 1), ("min", .int 0)])]
    let j' := Json.obj [("type", .str "expression"), ("id", .int 3), ("residualVariable", .str ""),
      ("slider", .obj [("hardMin", .int 1), ("min", .str "0")])]
    (Within ruleSpelling rule rule' ∧ ClickableRule.ofJson rule' = ClickableRule.ofJson rule) ∧
      (Within columnSpelling cells cells' ∧ Column.ofJson cells' = Column.ofJson cells) ∧
        Within itemSpelling j j' ∧ Item.ofJson j' = Item.ofJson j := by
  intro rule rule' cells cells' j j'
  have hrule : Within ruleSpelling rule rule' :=
    .cons ⟨rfl, .inr (by decide)⟩ (.cons ⟨rfl, .inr (by decide)⟩ .nil)
  have hvalues : List.Forall₂ Respelt [.int (-1), .str "a"] [.str "-1", .str "a"] :=
    .cons (.inr (by decide)) (.cons (.inl rfl) .nil)
  have hcells : Within columnSpelling cells cells' := .cons ⟨rfl, .inr (by decide)⟩ (.cons ⟨rfl, hvalues⟩ .nil)
  have hslider : Fields.Within (spelling [] ("animationPeriod" :: boundKeys)) [("hardMin", .int 1), ("min", .int 0)]
      [("hardMin", .int 1), ("min", .str "0")] := .cons ⟨rfl, rfl⟩ (.cons ⟨rfl, .inr (by decide)⟩ .nil)
  have hj : Within itemSpelling j j' :=
    .cons ⟨rfl, rfl⟩ (.cons ⟨rfl, rfl⟩ (.cons ⟨rfl, .inr (by decide)⟩ (.cons ⟨rfl, hslider⟩ .nil)))
  exact ⟨⟨hrule, (numbers_stand_for_their_texts rule rule').1 hrule⟩,
    ⟨hcells, (numbers_stand_for_their_texts cells cells').2.1 hcells⟩, hj, (numbers_stand_for_their_texts j j').2.2 hj⟩

/-- A side of a rule that is zero is empty, and a zero is no residual, whereas their texts are. -/
theorem a_zero_is_no_side_of_a_rule :
    (Json.spelt (.int 0) = .str "0" ∧
      ClickableRule.ofJson (.obj [("assignment", .int 0)]) = .ok ⟨none, ⟨""⟩, ⟨""⟩⟩ ∧
      ClickableRule.ofJson (.obj [("assignment", .str "0")]) = .ok ⟨none, ⟨"0"⟩, ⟨""⟩⟩) ∧
    ∀ residuals ∈ [Json.int 0, .str "0"],
      Item.ofJson (.obj [("type", .str "expression"), ("id", .str "e"), ("residualVariable", residuals)]) =
        .ok ⟨.leaf (.expression (some ⟨""⟩)), [],
          if residuals = .int 0 then [.id "e"] else [.id "e", .regression [] (some ⟨"0"⟩) []]⟩ := by
  decide +kernel

end GraphScript
