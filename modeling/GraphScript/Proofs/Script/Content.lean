/-
  GraphScript.Proofs.Script.Content — a translated group says something, with three exceptions.

  A group says something if one of its parts does: a text, an expression, a bound of an interval, a
  parameter, or a flag that is no empty text (`OptionGroup.Says`). Readers ask for that before they
  give a group (`Gives.says_of_kind`), but two do not. A domain is asked for by its object and not by its
  bounds, and the mode of a histogram may be an empty text. Clickable rules are meant to be there
  without any.

  What says something also shows it: behind the keyword and its colon comes more than an interval
  without bounds (`OptionGroup.Says.script_ne`).

  - `groups_say_something`
-/
import GraphScript.Proofs.Script.Translated
import GraphScript.Proofs.Text.Splitting

namespace GraphScript

open Faults Json

/-! ## Parts that say something -/

def Special.Says : Special → Prop
  | .text value => value ≠ .null
  | .interval value => value ≠ {}
  | .expression _ => True
  | .parameters ps => ps ≠ []
  | .rules rs => rs ≠ []

def Part.Says : Part → Prop
  | .special s => s.Says
  | .flag f => f ≠ .given (.str "")
  | .assigned _ _ => True

namespace OptionGroup

/-- There is a part of the group that says something. -/
def Says (g : OptionGroup) : Prop := ∃ p ∈ g.parts, p.Says

/-- The groups that are translated from an object without bounds or from an empty mode. -/
def bare : List OptionGroup := [.domain {}, .polarDomain {}, .histogramMode [.given (.str "")]]

theorem says_iff {g : OptionGroup} : g.Says ↔ (∃ s, g.first? = some s ∧ s.Says) ∨
    (∃ f ∈ g.flags, f ≠ .given (.str "")) ∨ ∃ p ∈ g.assignments, p.2 ≠ none := by
  have hassigned : (∃ p ∈ g.assignments, p.2 ≠ none) ↔ ∃ p, p ∈ present g.assignments := by
    simp [present, Option.ne_none_iff_exists']
  simp [Says, parts, Part.Says, or_and_right, exists_or, hassigned]

/-- Any word among its flags makes a group say something. -/
theorem says_iff_of_words {g : OptionGroup} {ws : List FlagWord} (hw : List.Sublist g.flags (ws.map .word)) :
    g.Says ↔ (∃ s, g.first? = some s ∧ s.Says) ∨ g.flags ≠ [] ∨ ∃ p ∈ g.assignments, p.2 ≠ none := by
  have hflags : (∃ f ∈ g.flags, f ≠ .given (.str "")) ↔ g.flags ≠ [] := by
    constructor
    · intro h
      obtain ⟨f, hf, -⟩ := h
      exact List.ne_nil_of_mem hf
    · intro h
      obtain ⟨f, hf⟩ := List.exists_mem_of_ne_nil _ h
      obtain ⟨w, -, rfl⟩ := List.mem_map.mp (hw.subset hf)
      exact ⟨_, hf, nofun⟩
  rw [says_iff, hflags]

end OptionGroup

open OptionGroup Json.Fields

theorem says_text {value : Json} :
    (∃ s, (if value.isNull then none else some (Special.text value)) = some s ∧ s.Says) ↔ value ≠ .null := by
  by_cases hv : value = .null
  · simp [hv, isNull]
  · simp [hv, isNull_iff, Special.Says]

/-- Bounds that are carried at all are not all missing. -/
theorem bounds_say {i : Interval} : (∃ s, i.bounds?.map Special.interval = some s ∧ s.Says) ↔ i.bounds? ≠ none := by
  unfold Interval.bounds?
  by_cases hi : i = {} <;> simp [hi, Special.Says]

namespace Json.Fields

variable {fs : Fields} {k : Kind} {g : OptionGroup}

/-- What its reader asks for before it gives a group makes the group say something. -/
theorem Gives.says_of_kind (h : fs.Gives k g) (hk : k ≠ .clickableRulesOption) (hbare : k ∉ bare.map OptionGroup.kind) :
    g.Says := by
  have hwords := h.worded fun hmode => hbare (by rw [← h.kind_eq, hmode]; decide)
  rw [says_iff_of_words hwords]
  cases h with
  | points _ _ hsaid | lines _ _ hsaid | boxplot _ _ _ hsaid =>
    simpa [first?, OptionGroup.flags, assignments, imp_iff_not_or] using hsaid
  | fill _ hsaid => simpa [first?, OptionGroup.flags, assignments, imp_iff_not_or] using hsaid
  | color _ hsaid =>
    rw [first?, says_text]
    simpa [OptionGroup.flags, assignments, imp_iff_not_or] using hsaid
  | label _ _ _ _ hsaid =>
    rw [first?, says_text]
    simp only [not_and_or] at hsaid
    simpa [OptionGroup.flags, assignments, or_left_comm] using hsaid
  | slider _ _ _ _ hsaid =>
    rw [first?, bounds_say]
    simp only [not_and_or] at hsaid
    simpa [OptionGroup.flags, assignments, or_left_comm] using hsaid
  | cdf _ _ hsaid =>
    rw [first?, bounds_say]
    simp only [not_and_or] at hsaid
    simpa [OptionGroup.flags, assignments, or_comm] using hsaid
  | @regression residuals _ _ hsaid =>
    simp only [not_and_or] at hsaid
    rcases hsaid with hparameters | hresiduals | hlog
    · exact .inl ⟨_, rfl, fun hnil => hparameters (List.map_eq_nil_iff.mp hnil)⟩
    · exact .inr (.inr ⟨("residuals", residuals), List.mem_singleton.mpr rfl, hresiduals⟩)
    · exact .inr (.inl (by simp [OptionGroup.flags, flagIf, hlog]))
  | image _ _ _ _ _ hsaid => simpa [first?, OptionGroup.flags, assignments] using hsaid
  | drag | display | binsAligned | dotplot => exact .inr (.inl (List.cons_ne_nil _ _))
  | fps => exact .inl ⟨_, rfl, trivial⟩
  | name hsaid | clickableLabel hsaid => exact .inl ⟨_, rfl, hsaid⟩
  | clickableRules => exact absurd rfl hk
  | domain | polarDomain | histogramMode => exact absurd (by decide) hbare

theorem Gives.says_iff (h : fs.Gives k g) (hk : k ≠ .clickableRulesOption) : g.Says ↔ g ∉ bare := by
  by_cases hbare : k ∈ bare.map OptionGroup.kind
  · cases h with
    | domain | polarDomain => simp [OptionGroup.says_iff, first?, OptionGroup.flags, assignments, Special.Says, bare]
    | histogramMode => simp [OptionGroup.says_iff, first?, OptionGroup.flags, assignments, bare]
    | _ => exact absurd hbare (by decide)
  · exact iff_of_true (h.says_of_kind hk hbare) fun hg => hbare (h.kind_eq ▸ List.mem_map_of_mem hg)

/-! ## Groups that say nothing -/

theorem interval_eq_empty {bounds : Interval} (h : fs.interval = .ok bounds) :
    bounds = {} ↔ ∀ key ∈ ["min", "max", "step"], fs.get key = .null := by
  have hnull : ∀ {key : String} {bound : Option Latex}, fs.latex key = .ok bound →
      (bound = none ↔ fs.get key = .null) := by
    intro key bound hbound
    rw [latex_eq_none hbound, ← Bool.not_eq_true, has_iff, not_not]
  simp only [interval, bind_eq_ok, pure_eq, Except.ok.injEq] at h
  obtain ⟨min, hmin, max, hmax, step, hstep, rfl⟩ := h
  simp only [Interval.mk.injEq, hnull hmin, hnull hmax, hnull hstep]
  simp

end Json.Fields

/-- A value that is null or has a bound. -/
def Json.IsBounded (j : Json) : Prop := j = .null ∨ ∃ key ∈ ["min", "max", "step"], j.valueOf key ≠ .null

/-- The values that bare groups come from are not those of this expression. -/
structure Json.SaysEnough (j : Json) : Prop where
  polarDomain : (j.valueOf "polarDomain").IsBounded
  domain : (j.valueOf "domain").IsBounded
  histogramMode : (j.valueOf "vizProps").valueOf "histogramMode" ≠ .str ""

namespace Json.Fields

variable {fs : Fields} {k : Kind} {g : OptionGroup}

theorem interval_of_bounded {j : Json} {bounds : Interval} (hj : j.IsObject) (h : j.entries.interval = .ok bounds) :
    j.IsBounded ↔ bounds ≠ {} := by
  obtain ⟨fs, rfl⟩ := hj
  rw [Ne, interval_eq_empty h]
  simp [IsBounded, entries]
  tauto

theorem Gives.not_bare (h : fs.Gives k g) (hj : (Json.obj fs).SaysEnough) : g ∉ bare := by
  cases h with
  | polarDomain hobject hbounds =>
    have hne := (interval_of_bounded hobject hbounds).mp hj.polarDomain
    simpa [bare] using hne
  | domain hobject hbounds =>
    have hne := (interval_of_bounded hobject hbounds).mp hj.domain
    simpa [bare] using hne
  | histogramMode =>
    have hne := hj.histogramMode
    simpa [bare] using hne
  | _ => simp [bare]

/-- A reader that asks for an object only gives a group even if the object has no bounds. -/
theorem bounds_given {key : String} {group : Interval → OptionGroup} {o : Option OptionGroup}
    (h : (if fs.has key then do return some (group (← (← (fs.get key).fields).interval)) else .ok none) = .ok o)
    (hj : ¬(fs.get key).IsBounded) : o = some (group {}) := by
  rw [IsBounded, not_or] at hj
  rw [if_pos (has_iff.mpr hj.1)] at h
  simp only [bind_eq_ok, pure_eq, Except.ok.injEq, fields_eq_ok] at h
  obtain ⟨inner, hinner, bounds, hbounds, rfl⟩ := h
  have hempty : bounds = {} := by
    rw [interval_eq_empty hbounds]
    rw [hinner] at hj
    simpa using hj.2
  rw [hempty]

theorem expressionGroups_bare {gs : List OptionGroup} (h : fs.expressionGroups = .ok gs) (hgs : ∀ g ∈ gs, g ∉ bare) :
    (Json.obj fs).SaysEnough := by
  have hmode : (fs.get "vizProps").valueOf "histogramMode" ≠ .str "" := by
    intro hempty
    have hmem := histogramMode_mem h (by rw [hempty]; exact nofun) (by rw [hempty]; rfl)
    rw [hempty] at hmem
    exact hgs _ hmem (by simp [bare])
  simp only [expressionGroups, bind_eq_ok, pure_eq, Except.ok.injEq] at h
  obtain ⟨_, -, _, -, _, -, _, -, polar, hpolar, domain, hdomain, _, -, _, -, _, -, _, -, rfl⟩ := h
  simp only [List.forall_mem_filterMap, id_eq] at hgs
  refine ⟨by_contra fun hj => ?_, by_contra fun hj => ?_, hmode⟩
  · exact hgs polar (by simp) _ (bounds_given hpolar hj) (by simp [bare])
  · exact hgs domain (by simp) _ (bounds_given hdomain hj) (by simp [bare])

end Json.Fields

/-! ## What is shown -/

/-- A list of texts that is empty has no text with characters. -/
theorem Text.eq_empty_of_joined {separator : String} {ts : List String} (h : joined separator ts = "") :
    ∀ t ∈ ts, t = "" := by
  intro t ht
  have hsub := joined_sublist separator (List.singleton_sublist.mpr ht)
  rw [h] at hsub
  exact String.toList_inj.mp (List.sublist_nil.mp hsub)

/-- Two texts or more have a separator between them. -/
theorem Text.joined_of_separator {separator : String} {ts : List String} {t : String} (h : joined separator ts = t)
    (hsep : ¬ separator.toList <:+: t.toList) (ht : t ≠ "") : ts = [t] := by
  match ts with
  | [] => exact absurd h.symm ht
  | [u] => rw [← h, joined]
  | u :: v :: ts =>
    have hcons : joined separator (u :: v :: ts) = u ++ separator ++ joined separator (v :: ts) := rfl
    refine absurd ⟨u.toList, (joined separator (v :: ts)).toList, ?_⟩ hsep
    rw [← h, hcons, String.toList_append, String.toList_append]

namespace OptionGroup

theorem flag_text {f : Flag} {t : String} (ht : f.script = .ok t) :
    (t = "" ↔ f = .given (.str "")) ∧ (t = "[:]" → f = .given (.str "[:]")) := by
  have hwords : ∀ w ∈ FlagWord.all, w.word ≠ "" ∧ w.word ≠ "[:]" := by decide
  cases f with
  | word w =>
    obtain rfl := Except.ok.inj ht
    have hw := hwords w w.mem_all
    exact ⟨iff_of_false hw.1 nofun, fun h => absurd h hw.2⟩
  | given value =>
    cases value with
    | str s =>
      obtain rfl := Except.ok.inj ht
      simp
    | _ => cases ht

variable {g : OptionGroup} {indentation text : String}

theorem first_text {first : String} (h : g.special indentation = .ok first) :
    Optionally (fun s t => Special.script indentation s = .ok t) g.first? first := by
  have hspecial := special_eq_ok h
  cases hg : g.first? with
  | none =>
    rw [hg] at hspecial
    exact hspecial
  | some s =>
    rw [hg] at hspecial
    exact hspecial.2

/-- Where flags and expressions show nothing, what stands first says all that the group says. -/
theorem Says.first (hs : g.Says) {flags : List String} (hflags : g.flags.mapM Flag.script = .ok flags)
    (hnone : ∀ t ∈ flags ++ g.assignmentScripts, t = "") : ∃ s, g.first? = some s ∧ s.Says := by
  rw [says_iff] at hs
  rcases hs with hfirst | ⟨f, hf, hsaid⟩ | ⟨p, hp, hvalue⟩
  · exact hfirst
  · obtain ⟨t, ht, hft⟩ := result_of_mapM hflags f hf
    exact absurd ((flag_text hft).1.mp (hnone t (List.mem_append_left _ ht))) hsaid
  · obtain ⟨l, hl⟩ := Option.ne_none_iff_exists'.mp hvalue
    have hmem : p.1 ++ "=" ++ l.script ∈ g.assignmentScripts := by
      refine List.mem_filterMap.mpr ⟨p, hp, ?_⟩
      simp only [hl, Option.map_some]
    have hempty := hnone _ (List.mem_append_right _ hmem)
    simp [String.append_eq_empty_iff] at hempty

/-- Only a flag looks like an interval without bounds where the group says something. -/
theorem Says.flags_of_text (hs : g.Says) {first gap : String} {flags : List String}
    (hfirst : Optionally (fun s t => Special.script indentation s = .ok t) g.first? first)
    (hflags : g.flags.mapM Flag.script = .ok flags) (hgap : first = "" → gap = "")
    (h : first ++ gap ++ Text.joined ", " (flags ++ g.assignmentScripts) = "[:]") :
    g.flags = [.given (.str "[:]")] := by
  cases hg : g.first? with
  | some s =>
    rw [hg] at hfirst
    have htext := congrArg String.toList h
    rw [String.toList_append, String.toList_append, List.append_assoc] at htext
    cases s with
    | interval i =>
      -- The interval is all of the text and has no bounds, so nothing is said anywhere.
      obtain rfl := Except.ok.inj hfirst
      obtain ⟨rfl, hrest⟩ := Interval.separable.eq (b := {}) (s := []) rfl rfl trivial trivial htext
      have hnone := Text.eq_empty_of_joined (String.toList_inj.mp (List.append_eq_nil_iff.mp hrest).2)
      obtain ⟨s, hgs, hsaid⟩ := hs.first hflags hnone
      rw [hg] at hgs
      cases hgs
      exact absurd rfl hsaid
    | _ =>
      obtain ⟨r, hr⟩ := Special.script_cons hfirst
      rw [hr] at htext
      cases htext
  | none =>
    rw [hg] at hfirst
    obtain rfl : "" = first := hfirst
    rw [hgap rfl, String.empty_append, String.empty_append] at h
    have hone := Text.joined_of_separator h (by decide) (by decide)
    rcases List.append_eq_singleton_iff.mp hone with ⟨-, hassigned⟩ | ⟨rfl, -⟩
    · obtain ⟨p, -, hp⟩ := List.mem_filterMap.mp (hassigned ▸ List.mem_singleton.mpr rfl : "[:]" ∈ g.assignmentScripts)
      obtain ⟨l, -, hl⟩ := Option.map_eq_some_iff.mp hp
      have hequals : '=' ∈ "[:]".toList := by
        rw [← hl]
        simp
      exact absurd hequals (by decide)
    · obtain ⟨f, fs, hf, hnil, hgf⟩ := List.forall₂_cons_right_iff.mp (mapM_eq_ok.mp hflags)
      rw [hgf, List.forall₂_nil_right_iff.mp hnil, (flag_text hf).2 rfl]

/-- The text of a group that says something is neither a bare keyword nor a keyword with an empty interval; only a flag
    of this text looks like one. -/
theorem Says.script_ne (hs : g.Says) (h : g.script indentation = .ok text) :
    text ≠ g.kind.keyword ++ ":" ∧ (text = g.kind.keyword ++ ": [:]" → g.flags = [.given (.str "[:]")]) := by
  simp only [script, bind_eq_ok, pure_eq, Except.ok.injEq] at h
  obtain ⟨first, hfirst, flags, hflags, rfl⟩ := h
  have hfirst := first_text hfirst
  generalize hgap : (if first = "" ∨ Text.joined ", " (flags ++ g.assignmentScripts) = "" then "" else ", ") = gap
  have hbody : first ++ gap ++ Text.joined ", " (flags ++ g.assignmentScripts) ≠ "" := by
    intro hempty
    rw [String.append_eq_empty_iff, String.append_eq_empty_iff] at hempty
    obtain ⟨s, hg, -⟩ := hs.first hflags (Text.eq_empty_of_joined hempty.2)
    rw [hg, hempty.1.1] at hfirst
    obtain ⟨r, hr⟩ := Special.script_cons hfirst
    cases hr
  rw [if_neg hbody]
  refine ⟨fun h => ?_, fun h => ?_⟩
  · have h := String.toList_inj.mpr h
    simp at h
  · have hnone : first = "" → gap = "" := fun he => by rw [← hgap, if_pos (.inl he)]
    refine hs.flags_of_text hfirst hflags hnone (String.toList_inj.mp ?_)
    have h := String.toList_inj.mpr h
    simpa using h

end OptionGroup

/-! ## Columns and items -/

theorem Column.groups_say {j : Json} {c : Column} (h : Column.ofJson j = .ok c) : ∀ g ∈ c.options, g.Says := by
  have hkinds : ∀ k ∈ stylingKinds, k ≠ .clickableRulesOption ∧ k ∉ bare.map OptionGroup.kind := by decide
  obtain ⟨fs, -, hgiven⟩ := Column.ofJson_given h
  intro g hg
  obtain ⟨k, hk, hgives⟩ := hgiven g hg
  exact hgives.says_of_kind (hkinds k hk).1 (hkinds k hk).2

theorem Item.groups_say {j : Json} {t : Item Affix} (h : Item.ofJson j = .ok t) :
    ∀ g ∈ t.options, g.kind ≠ .clickableRulesOption → (g.Says ↔ g ∉ bare) := by
  obtain ⟨fs, id, kind, -, -, hgiven⟩ := Item.ofJson_given h
  intro g hg hk
  rcases hgiven g hg with rfl | ⟨k, -, hgives⟩
  · exact iff_of_true (says_iff.mpr (.inl ⟨_, rfl, by simp [Special.Says]⟩)) (by simp [bare])
  · exact hgives.says_iff (hgives.kind_eq ▸ hk)

/-- Only an expression has bare groups. -/
theorem Item.ofJson_bare {j : Json} {t : Item Affix} (h : Item.ofJson j = .ok t) :
    (∀ g ∈ t.options, g ∉ bare) ↔ (ItemKind.ofJson? (j.valueOf "type") = some .expression → j.SaysEnough) := by
  constructor
  · intro hnone hk
    obtain ⟨fs, id, styling, kind, affix, groups, rfl, -, hk', -, hg, rfl⟩ := Item.ofJson_eq_ok h
    obtain rfl : .expression = kind := Option.some.inj (hk.symm.trans hk')
    exact expressionGroups_bare hg fun g hgm => hnone g (List.mem_cons_of_mem _ (List.mem_append_right _ hgm))
  · have hkinds : ∀ kind, kind ≠ ItemKind.expression → ∀ k ∈ stylingKinds ++ kind.ownKinds,
        k ∉ bare.map OptionGroup.kind := by
      intro kind hkind
      cases kind <;> first | exact absurd rfl hkind | decide
    intro hsaid
    obtain ⟨fs, id, kind, rfl, hk, hgiven⟩ := Item.ofJson_given h
    intro g hg
    rcases hgiven g hg with rfl | ⟨k, hkm, hgives⟩
    · simp [bare]
    · by_cases hkind : kind = .expression
      · exact hgives.not_bare (hsaid (hkind ▸ hk))
      · exact fun hb => hkinds kind hkind k hkm (hgives.kind_eq ▸ List.mem_map_of_mem hb)

/-- Every group of a column says something. So does every group of an item but for clickable rules, domains without
    bounds and the mode of a histogram that is an empty text; whether any of these is there is seen from the fields of
    the item. What says something is written as more than a keyword and an interval without bounds. -/
theorem groups_say_something (j : Json) :
    (∀ c : Column, Column.ofJson j = .ok c → ∀ g ∈ c.options, g.Says) ∧
    (∀ t : Item Affix, Item.ofJson j = .ok t →
      (∀ g ∈ t.groupsWith Affix.groups, g.kind ≠ .clickableRulesOption → (g.Says ↔ g ∉ bare)) ∧
      ((∀ g ∈ t.groupsWith Affix.groups, g.kind ≠ .clickableRulesOption → g.Says) ↔
        (ItemKind.ofJson? (j.valueOf "type") = some .expression → j.SaysEnough))) ∧
    (∀ (g : OptionGroup) (indentation text : String), g.Says → g.script indentation = .ok text →
      text ≠ g.kind.keyword ++ ":" ∧ (text = g.kind.keyword ++ ": [:]" → g.flags = [.given (.str "[:]")])) := by
  refine ⟨fun c => Column.groups_say, fun t h => ?_, fun g indentation text hs => hs.script_ne⟩
  have hcolumns : ∀ {g}, (∃ j c, Column.ofJson j = .ok c ∧ g ∈ c.options) → g.Says := by
    intro g hg
    obtain ⟨j, c, hc, hgc⟩ := hg
    exact Column.groups_say hc g hgc
  have hnever : ∀ {g}, g ∈ bare → ¬ g.Says := by
    intro g hg
    simp only [bare, List.mem_cons, List.not_mem_nil, or_false] at hg
    rcases hg with rfl | rfl | rfl <;> simp [says_iff, first?, OptionGroup.flags, assignments, Special.Says]
  constructor
  · intro g hg hk
    rcases Item.ofJson_groups h g hg with hg | hg
    · exact Item.groups_say h g hg hk
    · exact iff_of_true (hcolumns hg) fun hb => hnever hb (hcolumns hg)
  · rw [← Item.ofJson_bare h]
    have hkinds : ∀ g ∈ bare, g.kind ≠ .clickableRulesOption := by decide
    constructor
    · intro hsaid g hg hb
      exact hnever hb (hsaid g (List.mem_append_left _ hg) (hkinds g hb))
    · intro hnone g hg hk
      rcases Item.ofJson_groups h g hg with hg | hg
      · exact (Item.groups_say h g hg hk).mpr (hnone g hg)
      · exact hcolumns hg

/-- An expression with a domain that has a minimum, and a column. -/
theorem groups_of_a_bounded_domain_say_something :
    let j := Json.obj [("type", .str "expression"), ("id", .str "e"), ("domain", .obj [("min", .int 0)])]
    let t : Item Affix := ⟨.leaf (.expression (some ⟨""⟩)), [], [.id "e", .domain { min := some ⟨"0"⟩ }]⟩
    let cells := Json.obj [("lines", .bool true)]
    let c : Column := ⟨[], none, [], [.lines [.word .shown] none none]⟩
    (Column.ofJson cells = .ok c ∧ ∀ g ∈ c.options, g.Says) ∧
    (Item.ofJson j = .ok t ∧ ∀ g ∈ t.groupsWith Affix.groups, g.Says) ∧
    ((OptionGroup.lines [.word .shown] none none).script "" = .ok "lines: show" ∧ "lines: show" ≠ "lines" ++ ":") := by
  intro j t cells c
  have hc : Column.ofJson cells = .ok c := by decide +kernel
  have ht : Item.ofJson j = .ok t := by decide +kernel
  have hdomain : (j.valueOf "domain").IsBounded := .inr ⟨"min", by decide, by decide +kernel⟩
  have hbounded : j.SaysEnough := ⟨.inl (by decide +kernel), hdomain, by decide +kernel⟩
  have hcolumn := (groups_say_something cells).1 c hc
  have hscript : (OptionGroup.lines [.word .shown] none none).script "" = .ok "lines: show" := by decide
  refine ⟨⟨hc, hcolumn⟩, ⟨ht, fun g hg => ?_⟩, hscript, ?_⟩
  · refine (((groups_say_something j).2.1 t ht).2.mpr fun _ => hbounded) g hg ?_
    revert g
    decide
  · exact ((groups_say_something cells).2.2 _ "" "lines: show" (hcolumn _ (List.mem_singleton.mpr rfl)) hscript).1

/-- A domain without bounds is translated and written, and so is a mode that is an empty text. -/
theorem an_empty_domain_is_written :
    let j := Json.obj [("type", .str "expression"), ("id", .str "e"), ("domain", .obj []),
      ("vizProps", .obj [("histogramMode", .str "")])]
    let t : Item Affix := ⟨.leaf (.expression (some ⟨""⟩)), [],
      [.id "e", .domain {}, .histogramMode [.given (.str "")]]⟩
    Item.ofJson j = .ok t ∧
      (¬ (OptionGroup.domain {}).Says ∧ (OptionGroup.domain {}).script "" = .ok "domain: [:]") ∧
      (¬ (OptionGroup.histogramMode [.given (.str "")]).Says ∧
        (OptionGroup.histogramMode [.given (.str "")]).script "" = .ok "histogram mode:") := by
  refine ⟨by decide +kernel, ⟨?_, by decide⟩, ?_, by decide⟩ <;>
    simp [says_iff, first?, OptionGroup.flags, assignments, Special.Says]

end GraphScript
