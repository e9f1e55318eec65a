/-
  GraphScript.Proofs.Elision.Defaults — documents without their nulls and defaults.

  A field may be left out where its value is null, or equals the default of its key (`Owner.mayDrop`).
  Two stay even if they are null, the id of an item and the viewport of a graph. What a viewport holds
  and the parameters of a regression are no such fields.

  `Json.elided chosen` leaves out the fields that may be left out and are chosen, in every object that
  the translation reads: with all of them chosen nothing is left that may be left out.

  - `Elides.get_cases`, `Elides.view`: what an elided object has for a key.
-/
import GraphScript.Proofs.Json.Equality
import GraphScript.Proofs.State.Fields
import GraphScript.State.Translate

namespace GraphScript

/-! ## Defaults -/

/-- The objects of a document whose fields may be left out. An expression is an item of that type. -/
inductive Owner where
  | state | graph | expressions | item | expression | column | rule | clickableInfo | slider | cdf | domain | vizProps
  deriving DecidableEq, Repr

/-- The default of a key, wherever it stands. -/
def defaults : List (String × Json) :=
  [("secret", .bool false), ("hidden", .bool false), ("collapsed", .bool false), ("isPlaying", .bool false),
    ("foreground", .bool false), ("draggable", .bool false), ("showLabel", .bool false),
    ("interactiveLabel", .bool false), ("suppressTextOutline", .bool false),
    ("displayEvaluationAsFraction", .bool false), ("isLogModeRegression", .bool false), ("hardMin", .bool false),
    ("hardMax", .bool false), ("showBoxplotOutliers", .bool false), ("pointStyle", .str "POINT"),
    ("lineStyle", .str "SOLID"), ("dragMode", .str "NONE"), ("editableLabelMode", .str "NONE"),
    ("loopMode", .str "LOOP_FORWARD_REVERSE"), ("playDirection", .int 1), ("histogramMode", .str "count"),
    ("binAlignment", .str "center"), ("dotplotXMode", .str "binned"), ("alignedAxis", .str "x"), ("label", .str ""),
    ("residualVariable", .str ""), ("image_url", .str ""), ("columns", .arr []), ("values", .arr [])]

namespace Owner

/-- Keys that have a default in one sort of objects only. -/
def ownDefaults : List String := ["show", "latex", "assignment", "expression"]

/-- The default of a key in an object of this sort. -/
def default? (p : Owner) (key : String) : Option Json :=
  match p, key with
  | .cdf, "show" => some (.bool false)
  | .expression, "latex" | .rule, "assignment" | .rule, "expression" => some (.str "")
  | _, _ => defaults.lookup key

/-- The fields that stay although they are null. -/
def keeps (p : Owner) (key : String) : Bool :=
  match p, key with
  | .item, "id" | .expression, "id" | .graph, "viewport" => true
  | _, _ => false

/-- Whether a field of this value may be left out. -/
def mayDrop (p : Owner) (key : String) (value : Json) : Bool :=
  value.isNull && !p.keeps key || (p.default? key).any value.equals

theorem default?_eq {p : Owner} {key : String} (h : key ∉ ownDefaults) : p.default? key = defaults.lookup key := by
  unfold default?
  split <;> first | rfl | exact absurd (by decide) h

/-- Where the source of an expression has a default, it is the empty text. -/
theorem default?_latex {p : Owner} {d : Json} (h : p.default? "latex" = some d) : d = .str "" := by
  cases p with
  | expression => exact (Option.some.inj h).symm
  | _ => exact nomatch (show none = some d from h)

end Owner

/-! ## Elided documents -/

/-- Which of the fields that may be left out are left out. -/
abbrev Choice := Owner → String → Json → Bool

namespace Json

/-- The fields of an object without those that may be left out and are chosen; `inner` is for the values of the rest. -/
def Fields.elided (chosen : Choice) (p : Owner) (inner : String → Json → Json) (fs : Fields) : Fields :=
  (fs.filter fun (key, _) => !(p.mayDrop key (fs.get key) && chosen p key (fs.get key))).map fun (key, value) =>
    (key, inner key value)

/-- An object elided; what is no object stays as it is. -/
def elidedAt (chosen : Choice) (p : Owner) (inner : String → Json → Json) : Json → Json
  | .obj fs => .obj (Fields.elided chosen p inner fs)
  | j => j

/-- The members of a list, each elided; what is no list stays as it is. -/
def elidedAll (f : Json → Json) : Json → Json
  | .arr members => .arr (members.map f)
  | j => j

/-- The values of an object that holds no other ones. -/
def same (_ : String) (j : Json) : Json := j

/-- The values of what makes an item clickable. -/
def infoValue (chosen : Choice) (key : String) (value : Json) : Json :=
  match key with
  | "rules" => value.elidedAll (elidedAt chosen .rule same)
  | _ => value

/-- The values of an item. -/
def itemValue (chosen : Choice) (key : String) (value : Json) : Json :=
  match key with
  | "columns" => value.elidedAll (elidedAt chosen .column same)
  | "clickableInfo" => elidedAt chosen .clickableInfo (infoValue chosen) value
  | "slider" => elidedAt chosen .slider same value
  | "cdf" => elidedAt chosen .cdf same value
  | "domain" | "polarDomain" => elidedAt chosen .domain same value
  | "vizProps" => elidedAt chosen .vizProps same value
  | _ => value

/-- What an item is among the objects of a document. -/
def Fields.owner (fs : Fields) : Owner := if (fs.get "type").is "expression" then .expression else .item

def elidedItem (chosen : Choice) : Json → Json
  | .obj fs => .obj (Fields.elided chosen (Fields.owner fs) (itemValue chosen) fs)
  | j => j

/-- The values of the object that holds the items. -/
def expressionsValue (chosen : Choice) (key : String) (value : Json) : Json :=
  match key with
  | "list" => value.elidedAll (elidedItem chosen)
  | _ => value

/-- The values of a document. -/
def stateValue (chosen : Choice) (key : String) (value : Json) : Json :=
  match key with
  | "graph" => elidedAt chosen .graph same value
  | "expressions" => elidedAt chosen .expressions (expressionsValue chosen) value
  | _ => value

/-- A document without the fields that may be left out and are chosen. -/
def elided (chosen : Choice) (state : Json) : Json := elidedAt chosen .state (stateValue chosen) state

end Json

namespace Json

/-! ## Elided objects -/

theorem lookup_filter_map {α β γ : Type} [BEq α] [LawfulBEq α] (drops : α → Bool) (f : α → β → γ) (l : List (α × β))
    (key : α) : ((l.filter fun (k, _) => !drops k).map fun (k, v) => (k, f k v)).lookup key =
      if drops key then none else (l.lookup key).map (f key) := by
  induction l with
  | nil => simp
  | cons p l ih =>
    obtain ⟨k, v⟩ := p
    by_cases hk : key = k
    · subst hk
      cases hd : drops key with
      | true => simpa [hd] using ih
      | false => simp [hd]
    · have hb : (key == k) = false := beq_eq_false_iff_ne.mpr hk
      cases hd : drops k <;> simp [List.lookup_cons, hd, hb, ih]

theorem lookup_elided (chosen : Choice) (p : Owner) (inner : String → Json → Json) (fs : Fields) (key : String) :
    (Fields.elided chosen p inner fs).lookup key =
      if p.mayDrop key (fs.get key) && chosen p key (fs.get key) then none else (fs.lookup key).map (inner key) :=
  lookup_filter_map (fun k => p.mayDrop k (fs.get k) && chosen p k (fs.get k)) inner fs key

example : elidedItem (fun _ _ _ => true) (.obj [("type", .str "text"), ("id", .null), ("secret", .int 0),
    ("latex", .str ""), ("text", .null)]) = .obj [("type", .str "text"), ("id", .null), ("latex", .str "")] := by decide

/-- `gs` are the fields of an object that may be left of `fs`. -/
def Elides (p : Owner) (inner : String → Json → Json) (fs gs : Fields) : Prop :=
  ∃ chosen, gs = Fields.elided chosen p inner fs

namespace Elides

variable {p : Owner} {inner : String → Json → Json} {fs gs : Fields}

theorem of_elided (chosen : Choice) : Elides p inner fs (Fields.elided chosen p inner fs) := ⟨chosen, rfl⟩

/-- A field that has no default and may not be missing is there as it was. -/
theorem lookup_kept (h : Elides p inner fs gs) (key : String) (hd : p.default? key = none) (hk : p.keeps key = true) :
    gs.lookup key = (fs.lookup key).map (inner key) := by
  obtain ⟨chosen, rfl⟩ := h
  rw [lookup_elided, Owner.mayDrop, hd, hk]
  simp

/-- A field has the value that it had, elided itself, or else that was null or its default and it is missing. -/
theorem get_cases (h : Elides p inner fs gs) (key : String) :
    gs.get key = inner key (fs.get key) ∨
      gs.get key = .null ∧ (fs.get key = .null ∨ ∃ d, p.default? key = some d ∧ (fs.get key).equals d = true) := by
  obtain ⟨chosen, rfl⟩ := h
  have hl := lookup_elided chosen p inner fs key
  by_cases hd : (p.mayDrop key (fs.get key) && chosen p key (fs.get key)) = true
  · rw [if_pos hd] at hl
    right
    constructor
    · rw [Fields.get, hl]
      rfl
    · rw [Bool.and_eq_true, Owner.mayDrop, Bool.or_eq_true, Bool.and_eq_true, isNull_iff, Option.any_eq_true] at hd
      exact hd.1.imp And.left id
  · rw [if_neg hd] at hl
    cases hv : fs.lookup key with
    | none => exact .inr ⟨by rw [Fields.get, hl, hv]; rfl, .inl (by rw [Fields.get, hv]; rfl)⟩
    | some v => exact .inl (by rw [Fields.get, Fields.get, hl, hv]; rfl)

/-- What sees no difference between a value and the elided one, nor between a default and nothing, sees no
    difference at all. -/
theorem view {α : Type} (h : Elides p inner fs gs) (key : String) (f : Json → α) (hi : ∀ v, f (inner key v) = f v)
    (hd : ∀ d, p.default? key = some d → ∀ v, v.equals d = true → f v = f .null) : f (gs.get key) = f (fs.get key) := by
  rcases h.get_cases key with hg | ⟨hg, hn | ⟨d, hp, he⟩⟩
  · rw [hg, hi]
  · rw [hg, hn]
  · rw [hg, hd d hp _ he]

theorem view_of_no_default {α : Type} (h : Elides p inner fs gs) (key : String) (f : Json → α)
    (hd : p.default? key = none) (hi : ∀ v, f (inner key v) = f v) : f (gs.get key) = f (fs.get key) := by
  refine h.view key f hi fun d hp => ?_
  rw [hd] at hp
  cases hp

/-- What holds no object and has no default is as it was. -/
theorem get (h : Elides p inner fs gs) (key : String) (hk : key ∉ Owner.ownDefaults)
    (hd : defaults.lookup key = none) (hi : ∀ v, inner key v = v) : gs.get key = fs.get key :=
  h.view_of_no_default key id ((Owner.default?_eq hk).trans hd) hi

/-- Only whether it is truthy counts of a field whose default is not. -/
theorem truthy (h : Elides p inner fs gs) (key : String) (d : Json) (hd : p.default? key = some d)
    (hf : d.truthy = false) (hi : ∀ v, inner key v = v) : gs.truthy key = fs.truthy key := by
  refine h.view key Json.truthy (fun v => by rw [hi]) fun d' hp v he => ?_
  rw [hd] at hp
  cases hp
  exact truthy_of_equals he hf

theorem get_of_truthy (h : Elides p inner fs gs) (key : String) (d : Json) (hd : p.default? key = some d)
    (hf : d.truthy = false) (hi : ∀ v, inner key v = v) (ht : fs.truthy key = true) : gs.get key = fs.get key := by
  rw [Fields.truthy] at ht
  rcases h.get_cases key with hg | ⟨-, hn | ⟨d', hp, he⟩⟩
  · rw [hg, hi]
  · rw [hn] at ht
    cases ht
  · rw [hd] at hp
    cases hp
    rw [truthy_of_equals he hf] at ht
    cases ht

/-- A text that reads like nothing may be left out. -/
theorem text {α : Type} (h : Elides p inner fs gs) (key s : String) (f : Json → α)
    (hd : p.default? key = some (.str s)) (hf : f (.str s) = f .null) (hi : ∀ v, inner key v = v) :
    f (gs.get key) = f (fs.get key) := by
  refine h.view key f (fun v => by rw [hi]) fun d hp v he => ?_
  rw [hd] at hp
  cases hp
  rw [eq_of_equals_str he, hf]

end Elides

end Json

end GraphScript
