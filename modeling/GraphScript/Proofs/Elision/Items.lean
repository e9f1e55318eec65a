/-
  GraphScript.Proofs.Elision.Items — elided items are translated into the same items.

  Columns and items share the styling; what only items have is read from the objects in them. An
  object may be elided to one without fields, which reads like an object that is not there.

  - `Column.ofJson_elided`, `ClickableRule.ofJson_elided`, `Item.ofJson_elided`.
-/
import GraphScript.Proofs.Elision.Defaults
import GraphScript.State.Item

namespace GraphScript

open Json Faults

/-! ## Objects and lists in objects -/

namespace Json

variable {chosen : Choice} {p : Owner} {inner : String → Json → Json}

theorem isNull_elidedAt (j : Json) : (elidedAt chosen p inner j).isNull = j.isNull := by
  cases j <;> rfl

theorem elidedAt_of_no_object {j : Json} (hj : ¬∃ fs, j = .obj fs) : elidedAt chosen p inner j = j := by
  cases j with
  | obj fs => exact absurd ⟨fs, rfl⟩ hj
  | _ => rfl

theorem fields_elidedAt (j : Json) :
    (elidedAt chosen p inner j).fields = j.fields.map (Fields.elided chosen p inner) := by
  cases j <;> rfl

/-- A field that has no default and may not be missing is there as it was. -/
theorem need_elidedAt (key : String) (hd : p.default? key = none) (hk : p.keeps key = true) (hi : ∀ v, inner key v = v)
    (j : Json) : (elidedAt chosen p inner j).need key = j.need key := by
  cases j with
  | obj fs =>
    have hl : (Fields.elided chosen p inner fs).lookup key = fs.lookup key := by
      rw [(Elides.of_elided chosen).lookup_kept key hd hk, funext hi]
      exact Option.map_id_apply
    rw [elidedAt, need, need, hl]
  | _ => rfl

theorem nested_elidedAt (j : Json) :
    (elidedAt chosen p inner j).nested = j.nested.map (Fields.elided chosen p inner) := by
  by_cases hj : ∃ fs, j = .obj fs
  · obtain ⟨fs, rfl⟩ := hj
    -- An object without fields, like one that loses them all, is not truthy.
    have hn : ∀ gs : Fields, nested (.obj gs) = .ok gs := by
      intro gs
      cases gs <;> rfl
    rw [elidedAt, hn, hn, Except.map]
  · rw [elidedAt_of_no_object hj, nested]
    split
    · cases j with
      | obj fs => exact absurd ⟨fs, rfl⟩ hj
      | _ => rfl
    · rfl

theorem isNull_elidedAll (f : Json → Json) (j : Json) : (j.elidedAll f).isNull = j.isNull := by
  cases j <;> rfl

/-- The characters of a text and the keys of an object stay when the members of a list are elided. -/
theorem members_elidedAll {f : Json → Json} (hf : ∀ s, f (.str s) = .str s) (j : Json) :
    (j.elidedAll f).members = j.members.map (List.map f) := by
  have hstr : ∀ {α : Type} (g : α → String) (xs : List α),
      (xs.map fun a => Json.str (g a)).map f = xs.map fun a => .str (g a) := by
    intro α g xs
    rw [List.map_map]
    exact congrArg (List.map · xs) (funext fun a => hf (g a))
  cases j with
  | str s => exact congrArg Except.ok (hstr (·.toString) s.toList).symm
  | obj fs => exact congrArg Except.ok (hstr (·.1) fs).symm
  | _ => rfl

theorem membersIfAny_elidedAll {f : Json → Json} (hf : ∀ s, f (.str s) = .str s) (j : Json) :
    (j.elidedAll f).membersIfAny = j.membersIfAny.map (List.map f) := by
  have ht : (j.elidedAll f).truthy = j.truthy := by
    cases j with
    | arr xs => cases xs <;> rfl
    | _ => rfl
  by_cases h : j.truthy = true
  · rw [membersIfAny, membersIfAny, ht, if_pos h, if_pos h, members_elidedAll hf]
  · rw [membersIfAny, membersIfAny, ht, if_neg h, if_neg h]
    rfl

theorem mapM_elided {α : Type} {f : Json → Json} {g : Json → Except Fault α} (hg : ∀ j, g (f j) = g j)
    (xs : List Json) : (xs.map f).mapM g = xs.mapM g := by
  rw [List.mapM_map]
  exact congrArg (List.mapM · xs) (funext hg)

end Json

/-! ## Styling -/

/-- The keys of the objects in an item. -/
def objectKeys : List String := ["columns", "clickableInfo", "slider", "cdf", "domain", "polarDomain", "vizProps"]

/-- Nothing but the objects in an item is elided. -/
def OnlyObjects (inner : String → Json → Json) : Prop := ∀ key ∉ objectKeys, ∀ v, inner key v = v

theorem onlyObjects_same : OnlyObjects same := fun _ _ _ => rfl

theorem onlyObjects_itemValue (chosen : Choice) : OnlyObjects (itemValue chosen) := by
  intro key hk v
  unfold itemValue
  split <;> first | rfl | exact absurd (by decide) hk

/-- Whether a key has no default and stands for no object. -/
def isPlain (key : String) : Bool :=
  !Owner.ownDefaults.contains key && !objectKeys.contains key && (defaults.lookup key).isNone

namespace Json.Elides

variable {p : Owner} {inner : String → Json → Json} {fs gs : Fields}

theorem plain (h : Elides p inner fs gs) (hi : OnlyObjects inner) (key : String) (hk : isPlain key = true) :
    gs.get key = fs.get key := by
  rw [isPlain, Bool.and_eq_true, Bool.and_eq_true] at hk
  obtain ⟨⟨hk, ho⟩, hd⟩ := hk
  exact h.get key (by simpa using hk) (by simpa using hd) (hi key (by simpa using ho))

theorem plainTruthy (h : Elides p inner fs gs) (hi : OnlyObjects inner) (key : String) (hk : isPlain key = true) :
    gs.truthy key = fs.truthy key := by
  rw [Fields.truthy, Fields.truthy, h.plain hi key hk]

theorem has (h : Elides p inner fs gs) (hi : OnlyObjects inner) (key : String) (hk : isPlain key = true) :
    gs.has key = fs.has key := by
  rw [Fields.has, Fields.has, h.plain hi key hk]

theorem latex (h : Elides p inner fs gs) (hi : OnlyObjects inner) (key : String) (hk : isPlain key = true) :
    gs.latex key = fs.latex key := by
  rw [Fields.latex, Fields.latex, h.plain hi key hk]

theorem interval (h : Elides p inner fs gs) (hi : OnlyObjects inner) : gs.interval = fs.interval := by
  simp (disch := decide) only [Fields.interval, h.latex hi]

/-- A flag that is down unless it is true. -/
theorem flag (h : Elides p inner fs gs) (hi : OnlyObjects inner) (key : String) (hk : key ∉ Owner.ownDefaults)
    (ho : key ∉ objectKeys) (hd : defaults.lookup key = some (.bool false)) : gs.truthy key = fs.truthy key :=
  h.truthy key (.bool false) ((Owner.default?_eq hk).trans hd) rfl (hi key ho)

theorem visibilityFlag (h : Elides p inner fs gs) (hi : OnlyObjects inner) (key : String) (hk : isPlain key = true) :
    gs.visibilityFlag key = fs.visibilityFlag key := by
  rw [Fields.visibilityFlag, Fields.visibilityFlag, h.has hi key hk, h.plainTruthy hi key hk]

theorem pointFlags (h : Elides p inner fs gs) (hi : OnlyObjects inner) : gs.pointFlags = fs.pointFlags := by
  have hs := h.text "pointStyle" "POINT" (fun style => if style.isNull || style.is "POINT" then [] else
    [Flag.word (if style.is "OPEN" then .pointOpen else .pointCross)]) (Owner.default?_eq (by decide)) rfl
    (hi _ (by decide))
  exact congrArg₂ (· ++ ·) (h.visibilityFlag hi "points" (by decide)) hs

theorem lineFlags (h : Elides p inner fs gs) (hi : OnlyObjects inner) : gs.lineFlags = fs.lineFlags := by
  have hs := h.text "lineStyle" "SOLID" (fun style => if style.isNull || style.is "SOLID" then [] else
    [Flag.word (if style.is "DASHED" then .lineDashed else .lineDotted)]) (Owner.default?_eq (by decide)) rfl
    (hi _ (by decide))
  exact congrArg₂ (· ++ ·) (h.visibilityFlag hi "lines" (by decide)) hs

theorem styling (h : Elides p inner fs gs) (hi : OnlyObjects inner) : gs.styling = fs.styling := by
  have hp : gs.points = fs.points := by
    simp (disch := decide) only [Fields.points, h.pointFlags hi, h.has hi, h.latex hi]
  have hl : gs.lines = fs.lines := by
    simp (disch := decide) only [Fields.lines, h.lineFlags hi, h.has hi, h.latex hi]
  have hf : gs.fill = fs.fill := by
    simp (disch := decide) only [Fields.fill, h.visibilityFlag hi, h.has hi, h.latex hi]
  have hc : gs.color = fs.color := by
    simp (disch := decide) only [Fields.color, h.plain hi, h.has hi, h.latex hi]
  have hd : gs.drag = fs.drag := by
    rw [Fields.drag, Fields.drag, h.text "dragMode" "NONE" (lookupIn Fields.dragModes) (Owner.default?_eq (by decide))
      rfl (hi _ (by decide))]
  rw [Fields.styling, Fields.styling, hp, hl, hf, hc, hd]

end Json.Elides

/-! ## Columns and rules -/

/-- What an object is read as does not depend on what it is elided to. -/
theorem ofFields_elidedAt {α : Type} {chosen : Choice} {p : Owner} {inner : String → Json → Json}
    {f : Json.Fields → Except Fault α} (hf : ∀ fs gs, Elides p inner fs gs → f gs = f fs) (j : Json) :
    ((elidedAt chosen p inner j).fields >>= f) = (j.fields >>= f) := by
  rw [fields_elidedAt, mapped_bind]
  exact congrArg (j.fields >>= ·) (funext fun fs => hf _ _ (.of_elided chosen))

/-- The members of a list that may be left out where it is empty. -/
theorem membersIfAny_nil {v : Json} (h : v.equals (.arr []) = true) : v.membersIfAny = Json.null.membersIfAny := by
  rw [eq_of_equals_nil h]
  rfl

theorem Column.ofJson_elided (chosen : Choice) (j : Json) :
    Column.ofJson (elidedAt chosen .column same j) = Column.ofJson j := by
  refine ofFields_elidedAt (fun fs gs h => ?_) j
  have hi := onlyObjects_same
  have hv : (gs.get "values").membersIfAny = (fs.get "values").membersIfAny := by
    refine h.view "values" membersIfAny (fun _ => rfl) fun d hd v he => membersIfAny_nil ?_
    rw [← Option.some.inj hd] at he
    exact he
  have hl : gs.latex "latex" = fs.latex "latex" :=
    h.view_of_no_default "latex" (·.present Json.latex) rfl fun _ => rfl
  simp (disch := decide) only [hv, hl, h.flag hi, h.styling hi]

theorem ClickableRule.ofJson_elided (chosen : Choice) (j : Json) :
    ClickableRule.ofJson (elidedAt chosen .rule same j) = ClickableRule.ofJson j := by
  refine ofFields_elidedAt (fun fs gs h => ?_) j
  have hi := onlyObjects_same
  have side : ∀ key, Owner.default? .rule key = some (.str "") →
      (if gs.truthy key then (gs.get key).latex else .ok ⟨""⟩) =
        (if fs.truthy key then (fs.get key).latex else .ok ⟨""⟩ : Except Fault Latex) := fun key hd =>
    h.text key "" (fun v => if v.truthy then v.latex else .ok ⟨""⟩) hd rfl fun _ => rfl
  simp (disch := decide) only [h.has hi, h.plain hi, side]

/-! ## Groups of expressions -/

namespace Json.Elides

variable {chosen : Choice} {p : Owner} {inner : String → Json → Json} {fs gs : Fields}

/-- An object in an item is elided itself. -/
theorem object (h : Elides p inner fs gs) (key : String) (hk : key ∉ Owner.ownDefaults)
    (hd : defaults.lookup key = none) (hn : inner key .null = .null) : gs.get key = inner key (fs.get key) := by
  rcases h.get_cases key with hg | ⟨hg, he | ⟨d, hp, -⟩⟩
  · exact hg
  · rw [hg, he, hn]
  · rw [Owner.default?_eq hk, hd] at hp
    cases hp

/-- An object in an item, or an empty one, is read like what it is elided to. -/
theorem nested {α : Type} {inner' : String → Json → Json} (h : Elides p inner fs gs) (key : String) (q : Owner)
    (hk : key ∉ Owner.ownDefaults) (hd : defaults.lookup key = none) (hv : ∀ v, inner key v = elidedAt chosen q inner' v)
    (f : Fields → Except Fault α) (hf : ∀ fs gs, Elides q inner' fs gs → f gs = f fs) :
    ((gs.get key).nested >>= f) = ((fs.get key).nested >>= f) := by
  rw [h.object key hk hd (hv _), hv, nested_elidedAt, mapped_bind]
  exact congrArg ((fs.get key).nested >>= ·) (funext fun fs => hf _ _ (.of_elided chosen))

/-- The bounds of a domain are those of what it is elided to. -/
theorem bounds (h : Elides p (itemValue chosen) fs gs) (key : String) (hk : key ∉ Owner.ownDefaults)
    (hd : defaults.lookup key = none) (hv : ∀ v, itemValue chosen key v = elidedAt chosen .domain same v)
    (group : Interval → OptionGroup) :
    (if gs.has key then do return some (group (← (← (gs.get key).fields).interval)) else .ok none) =
      (if fs.has key then do return some (group (← (← (fs.get key).fields).interval)) else .ok none :
        Except Fault (Option OptionGroup)) := by
  have hf : ∀ v, ((elidedAt chosen .domain same v).fields >>= fun fs => do return some (group (← fs.interval))) =
      (v.fields >>= fun fs => do return some (group (← fs.interval))) :=
    ofFields_elidedAt fun fs gs h => by rw [h.interval onlyObjects_same]
  refine h.view_of_no_default key
    (fun v => if !v.isNull then do return some (group (← (← v.fields).interval)) else .ok none)
    ((Owner.default?_eq hk).trans hd) fun v => ?_
  rw [hv, isNull_elidedAt, hf]

theorem regression (h : Elides p inner fs gs) (hi : OnlyObjects inner) : gs.regression = fs.regression := by
  have hr : gs.truthy "residualVariable" = fs.truthy "residualVariable" :=
    h.truthy "residualVariable" (.str "") (Owner.default?_eq (by decide)) rfl (hi _ (by decide))
  simp (disch := decide) only [Fields.regression, h.plain hi, h.plainTruthy hi, h.flag hi, hr]
  by_cases ht : fs.truthy "residualVariable" = true
  · rw [h.get_of_truthy "residualVariable" (.str "") (Owner.default?_eq (by decide)) rfl (hi _ (by decide)) ht]
  · simp only [ht, Bool.false_eq_true, if_false]

theorem slider (h : Elides p (itemValue chosen) fs gs) : gs.slider = fs.slider := by
  refine h.nested "slider" .slider (by decide) (by decide) (fun _ => rfl) _ fun fs gs h => ?_
  have hi := onlyObjects_same
  have hm : (gs.get "loopMode").lookupIn Fields.loopModes = (fs.get "loopMode").lookupIn Fields.loopModes :=
    h.text "loopMode" "LOOP_FORWARD_REVERSE" (lookupIn Fields.loopModes) rfl rfl fun _ => rfl
  have hd : (gs.get "playDirection").equals (.int (-1)) = (fs.get "playDirection").equals (.int (-1)) := by
    refine h.view "playDirection" (fun v => v.equals (.int (-1))) (fun _ => rfl) fun d hd v he => ?_
    rw [← Option.some.inj hd, equals_int] at he
    refine Bool.eq_false_iff.mpr fun hl => ?_
    rw [equals_int, he] at hl
    cases hl
  simp (disch := decide) only [hm, hd, h.flag hi, h.interval hi, h.latex hi]

theorem cdf (h : Elides p (itemValue chosen) fs gs) : gs.cdf = fs.cdf := by
  refine h.nested "cdf" .cdf (by decide) (by decide) (fun _ => rfl) _ fun fs gs h => ?_
  have hs : gs.truthy "show" = fs.truthy "show" := h.truthy "show" (.bool false) rfl rfl fun _ => rfl
  simp only [h.interval onlyObjects_same, hs]

theorem polarDomain (h : Elides p (itemValue chosen) fs gs) : gs.polarDomain = fs.polarDomain :=
  h.bounds "polarDomain" (by decide) (by decide) (fun _ => rfl) .polarDomain

theorem domain (h : Elides p (itemValue chosen) fs gs) : gs.domain = fs.domain :=
  h.bounds "domain" (by decide) (by decide) (fun _ => rfl) .domain

theorem label (h : Elides p inner fs gs) (hi : OnlyObjects inner) : gs.label = fs.label := by
  have he : (gs.get "editableLabelMode").lookupIn Fields.editableModes =
      (fs.get "editableLabelMode").lookupIn Fields.editableModes :=
    h.text "editableLabelMode" "NONE" (lookupIn Fields.editableModes) (Owner.default?_eq (by decide)) rfl
      (hi _ (by decide))
  have hl : (gs.get "label").orNull = (fs.get "label").orNull :=
    h.text "label" "" orNull (Owner.default?_eq (by decide)) rfl (hi _ (by decide))
  simp (disch := decide) only [Fields.label, he, hl, h.flag hi, h.latex hi]

theorem fraction (h : Elides p inner fs gs) (hi : OnlyObjects inner) : gs.fraction = fs.fraction := by
  simp (disch := decide) only [Fields.fraction, h.flag hi]

theorem clickableLabel (h : Elides .clickableInfo (infoValue chosen) fs gs) : gs.clickableLabel = fs.clickableLabel := by
  have hd : gs.get "description" = fs.get "description" := h.get _ (by decide) (by decide) fun _ => rfl
  rw [Fields.clickableLabel, Fields.clickableLabel, Fields.has, Fields.has, hd]

theorem rules (h : Elides .clickableInfo (infoValue chosen) fs gs) :
    gs.get "rules" = (fs.get "rules").elidedAll (elidedAt chosen .rule same) :=
  h.object "rules" (by decide) (by decide) rfl

theorem rulesOf_elided (chosen : Choice) (members : List Json) :
    rulesOf (members.map (elidedAt chosen .rule same)) = rulesOf members :=
  mapM_elided (ClickableRule.ofJson_elided chosen) members

theorem clickableRules (h : Elides .clickableInfo (infoValue chosen) fs gs) : gs.clickableRules = fs.clickableRules := by
  have he : gs.truthy "enabled" = fs.truthy "enabled" := by
    rw [Fields.truthy, Fields.truthy, h.get "enabled" (by decide) (by decide) fun _ => rfl]
  have hr : gs.has "rules" = fs.has "rules" := by
    rw [Fields.has, Fields.has, h.rules, isNull_elidedAll]
  have hm : (gs.get "rules").members = (fs.get "rules").members.map (List.map (elidedAt chosen .rule same)) := by
    rw [h.rules, members_elidedAll fun _ => rfl]
  simp only [Fields.clickableRules, he, hr, hm, mapped_bind, rulesOf_elided]

/-! ### Visualizations -/

theorem binsAligned (h : Elides .vizProps same fs gs) : gs.binsAligned = fs.binsAligned :=
  h.text "binAlignment" "center" (fun v => if v.is "left" then some (OptionGroup.binsAligned [.word .left]) else none)
    rfl rfl fun _ => rfl

theorem histogramMode (h : Elides .vizProps same fs gs) : gs.histogramMode = fs.histogramMode :=
  h.text "histogramMode" "count" (fun v => if v.isNull || v.is "count" then none else
    some (OptionGroup.histogramMode [.given v])) rfl rfl fun _ => rfl

theorem dotplot (h : Elides .vizProps same fs gs) : gs.dotplot = fs.dotplot :=
  h.text "dotplotXMode" "binned" (fun v => if v.is "exact" then some (OptionGroup.dotplot [.word .binnedX]) else none)
    rfl rfl fun _ => rfl

theorem boxplot (h : Elides .vizProps same fs gs) : gs.boxplot = fs.boxplot := by
  have hi := onlyObjects_same
  have ha : (gs.get "alignedAxis").is "y" = (fs.get "alignedAxis").is "y" :=
    h.text "alignedAxis" "x" (Json.is "y") rfl rfl fun _ => rfl
  simp (disch := decide) only [Fields.boxplot, ha, h.flag hi, h.has hi, h.latex hi]

/-! ### All of them -/

theorem expressionGroups (h : Elides p (itemValue chosen) fs gs) : gs.expressionGroups = fs.expressionGroups := by
  have hi := onlyObjects_itemValue chosen
  have hinfo : (gs.get "clickableInfo").nested =
      (fs.get "clickableInfo").nested.map (Fields.elided chosen .clickableInfo (infoValue chosen)) := by
    rw [h.object "clickableInfo" (by decide) (by decide) rfl, itemValue, nested_elidedAt]
  have hviz : (gs.get "vizProps").nested = (fs.get "vizProps").nested.map (Fields.elided chosen .vizProps same) := by
    rw [h.object "vizProps" (by decide) (by decide) rfl, itemValue, nested_elidedAt]
  simp only [Fields.expressionGroups, hinfo, hviz, mapped_bind, clickableLabel (.of_elided chosen),
    clickableRules (.of_elided chosen), h.regression hi, h.slider, h.polarDomain, h.domain, h.cdf, h.label hi,
    h.fraction hi, binsAligned (.of_elided chosen), histogramMode (.of_elided chosen), dotplot (.of_elided chosen),
    boxplot (.of_elided chosen)]

end Json.Elides

/-! ## Items -/

namespace ItemKind

variable {chosen : Choice} {p : Owner} {fs gs : Json.Fields}

theorem affix_elided (h : Elides p (itemValue chosen) fs gs) (kind : ItemKind) : kind.affix gs = kind.affix fs := by
  have hi := onlyObjects_itemValue chosen
  cases kind with
  | folder => simp (disch := decide) only [affix, h.plain hi]
  | table =>
    refine h.view "columns" (fun v => do return Affix.leaf (.table (← (← v.membersIfAny).mapM Column.ofJson)))
      (fun v => ?_) fun d hd v he => ?_
    · rw [itemValue, membersIfAny_elidedAll fun _ => rfl, mapped_bind]
      simp only [mapM_elided (Column.ofJson_elided chosen)]
    · rw [Owner.default?_eq (by decide)] at hd
      rw [← Option.some.inj hd] at he
      rw [membersIfAny_nil he]
  | simulation =>
    refine h.nested "clickableInfo" .clickableInfo (by decide) (by decide) (fun _ => rfl) _ fun fs gs h => ?_
    rw [h.rules, membersIfAny_elidedAll fun _ => rfl, mapped_bind]
    simp only [Elides.rulesOf_elided]
  | expression =>
    refine h.view "latex" (fun v => do return Affix.leaf (.expression (some ((← v.present Json.latex).getD ⟨""⟩))))
      (fun v => rfl) fun d hd v he => ?_
    rw [Owner.default?_latex hd] at he
    rw [eq_of_equals_str he]
    rfl
  | image =>
    exact h.text "image_url" "" (fun v => Except.ok (Affix.leaf (.image (if v.truthy then v else .str ""))))
      (Owner.default?_eq (by decide)) rfl fun _ => rfl
  | text => simp (disch := decide) only [affix, h.plain hi]

theorem smallFlags_elided (h : Elides p (itemValue chosen) fs gs) (kind : ItemKind) :
    kind.smallFlags gs = kind.smallFlags fs := by
  have hi := onlyObjects_itemValue chosen
  cases kind <;> simp (disch := decide) only [smallFlags, h.flag hi]

theorem groups_elided (h : Elides p (itemValue chosen) fs gs) (kind : ItemKind) : kind.groups gs = kind.groups fs := by
  have hi := onlyObjects_itemValue chosen
  cases kind with
  | simulation => simp (disch := decide) only [groups, h.latex hi]
  | expression => exact h.expressionGroups
  | image => simp (disch := decide) only [groups, geometry, h.plain hi, h.has hi, h.latex hi]
  | folder | table | text => rfl

end ItemKind

theorem owner_keeps_id (fs : Json.Fields) : (Json.Fields.owner fs).keeps "id" = true := by
  unfold Json.Fields.owner
  split <;> rfl

theorem Item.ofJson_elided (chosen : Choice) (j : Json) : Item.ofJson (elidedItem chosen j) = Item.ofJson j := by
  cases j with
  | obj fs =>
    have h : Elides (Json.Fields.owner fs) (itemValue chosen) fs _ := .of_elided chosen
    have hid : (elidedItem chosen (.obj fs)).need "id" = need (.obj fs) "id" :=
      need_elidedAt "id" (Owner.default?_eq (by decide)) (owner_keeps_id fs) (fun _ => rfl) (.obj fs)
    rw [Item.ofJson, Item.ofJson, hid, elidedItem]
    generalize Json.Fields.elided chosen (Json.Fields.owner fs) (itemValue chosen) fs = gs at h ⊢
    have hi := onlyObjects_itemValue chosen
    have ht : Json.Fields.get gs "type" = Json.Fields.get fs "type" := h.plain hi _ (by decide)
    simp (disch := decide) only [fields, ok_bind, ht, h.styling hi, h.flag hi,
      ItemKind.affix_elided h, ItemKind.groups_elided h, ItemKind.smallFlags_elided h]
  | _ => rfl

end GraphScript
