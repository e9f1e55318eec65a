/-
  GraphScript.Proofs.Script.Typed — every group of the right types is known from its text.

  A group can be put together by hand, from values that no document leads to: flags in any order and
  more than once, intervals without bounds, rules with and without an id. All that counts is that
  each value is of the type that the kind of the group calls for (`OptionGroup.WellTyped`). Such a
  group can be written, and its text tells its kind and all that it holds.

  A flag is known by its text, whether it was given as a word or as a text, and so is the value of a
  regression (`OptionGroup.spelt`). To each flag there is a plain one of the same text (`plainOf`),
  so what is known of plain groups is enough.

  - `text_tells_group`
-/
import GraphScript.Proofs.Script.Groups
import GraphScript.Proofs.Script.Writable
import GraphScript.Proofs.State.Flags

namespace GraphScript

open Faults

/-! ## Flags -/

/-- The texts that flags of a group of this kind may have. -/
def flagTexts (kind : Kind) : List String :=
  if kind = .histogramModeOption then ["relative", "density"] else (vocabulary kind).map FlagWord.word

namespace Flag

/-- A flag as its text. -/
def spelt : Flag → Flag
  | .word w => .given (.str w.word)
  | .given value => .given value

theorem spelt_of_script {f : Flag} {t : String} (h : f.script = .ok t) : f.spelt = .given (.str t) := by
  cases f with
  | word w =>
    obtain rfl := Except.ok.inj h
    rfl
  | given value =>
    cases value with
    | str s =>
      obtain rfl := Except.ok.inj h
      rfl
    | _ => cases h

/-- The plain flag of the same text, if there is one. -/
def plainOf (f : Flag) : Flag := (plain.find? fun p => p.script.toOption == f.script.toOption).getD f

theorem plain_of_flagTexts {kind : Kind} {t : String} (h : t ∈ flagTexts kind) : ∃ p ∈ plain, p.script = .ok t := by
  unfold flagTexts at h
  split at h
  · refine ⟨.given (.str t), List.mem_append_right _ ?_, rfl⟩
    rcases List.mem_cons.mp h with rfl | h
    · exact List.mem_cons_self ..
    · rw [List.mem_singleton.mp h]
      exact List.mem_cons_of_mem _ (List.mem_cons_self ..)
  · obtain ⟨w, -, rfl⟩ := List.mem_map.mp h
    exact ⟨.word w, word_plain w, rfl⟩

theorem plainOf_plain {f : Flag} {t : String} (hf : f.script = .ok t) (ht : ∃ p ∈ plain, p.script = .ok t) :
    f.plainOf ∈ plain ∧ f.plainOf.script = f.script := by
  obtain ⟨p, hp, hpt⟩ := ht
  have hsome : (plain.find? fun p => p.script.toOption == f.script.toOption).isSome := by
    rw [List.find?_isSome]
    exact ⟨p, hp, by rw [hpt, hf]; exact beq_self_eq_true _⟩
  obtain ⟨q, hq⟩ := Option.isSome_iff_exists.mp hsome
  have hqt : q.script.toOption = some t := by
    have heq := List.find?_some hq
    rw [beq_iff_eq, hf] at heq
    exact heq
  rw [plainOf, hq, Option.getD_some, hf]
  refine ⟨List.mem_of_find?_eq_some hq, ?_⟩
  cases hs : q.script with
  | ok u =>
    rw [hs] at hqt
    exact congrArg Except.ok (Option.some.inj hqt)
  | error e =>
    rw [hs] at hqt
    cases hqt

end Flag

namespace OptionGroup

/-! ## Groups with other flags -/

def mapFlags (f : Flag → Flag) : OptionGroup → OptionGroup
  | .label value size angle flags => .label value size angle (flags.map f)
  | .slider value period flags => .slider value period (flags.map f)
  | .cdf value flags => .cdf value (flags.map f)
  | .regression parameters residuals flags => .regression parameters residuals (flags.map f)
  | .clickableRules rules flags => .clickableRules rules (flags.map f)
  | .display flags => .display (flags.map f)
  | .binsAligned flags => .binsAligned (flags.map f)
  | .histogramMode flags => .histogramMode (flags.map f)
  | .drag flags => .drag (flags.map f)
  | .points flags opacity size => .points (flags.map f) opacity size
  | .lines flags opacity width => .lines (flags.map f) opacity width
  | .fill flags opacity => .fill (flags.map f) opacity
  | .boxplot breadth offset flags => .boxplot breadth offset (flags.map f)
  | .dotplot flags => .dotplot (flags.map f)
  | g => g

section

variable (f f' : Flag → Flag) (g : OptionGroup)

@[simp] theorem kind_mapFlags : (g.mapFlags f).kind = g.kind := by cases g <;> rfl

@[simp] theorem flags_mapFlags : (g.mapFlags f).flags = g.flags.map f := by cases g <;> rfl

@[simp] theorem special_mapFlags (indentation : String) : (g.mapFlags f).special indentation = g.special indentation := by
  cases g <;> rfl

@[simp] theorem assignmentScripts_mapFlags : (g.mapFlags f).assignmentScripts = g.assignmentScripts := by
  cases g <;> rfl

@[simp] theorem erased_mapFlags : (g.mapFlags f).erased = g.erased.mapFlags f := by cases g <;> rfl

@[simp] theorem flags_erased : g.erased.flags = g.flags := by cases g <;> rfl

theorem mapFlags_mapFlags : (g.mapFlags f).mapFlags f' = g.mapFlags (f' ∘ f) := by
  cases g <;> simp only [mapFlags, List.map_map]

variable {f f' g}

theorem mapFlags_congr (h : ∀ x ∈ g.flags, f x = f' x) : g.mapFlags f = g.mapFlags f' := by
  have hflags := List.map_congr_left h
  cases g <;> simp only [flags] at hflags <;> simp only [mapFlags, hflags]

/-- Flags of the same texts make no difference to the text of a group. -/
theorem script_mapFlags (indentation : String) (h : ∀ x ∈ g.flags, (f x).script = x.script) :
    (g.mapFlags f).script indentation = g.script indentation := by
  have hflags : (g.flags.map f).mapM Flag.script = g.flags.mapM Flag.script := by
    rw [List.mapM_map]
    exact mapM_congr h
  simp only [script, special_mapFlags, flags_mapFlags, hflags, assignmentScripts_mapFlags, kind_mapFlags]

end

/-! ## Groups of the right types -/

/-- What stands first in the group is of the type of its kind, and its flags are words of its kind: any number of them,
    in any order. -/
structure WellTyped (g : OptionGroup) : Prop where
  first : g.Presentable
  flags : ∀ f ∈ g.flags, ∃ t ∈ flagTexts g.kind, f.script = .ok t

/-- A group as it shows: each flag and each value of a regression as its text. -/
def spelt (g : OptionGroup) : OptionGroup := g.erased.mapFlags Flag.spelt

variable {g : OptionGroup}

theorem WellTyped.writable (h : g.WellTyped) : g.Writable := by
  refine ⟨h.first, fun f hf => ?_⟩
  obtain ⟨t, -, ht⟩ := h.flags f hf
  exact f.script_succeeds.mp ⟨t, ht⟩

theorem WellTyped.plainOf (h : g.WellTyped) : ∀ f ∈ g.flags, f.plainOf ∈ Flag.plain ∧ f.plainOf.script = f.script := by
  intro f hf
  obtain ⟨t, ht, hft⟩ := h.flags f hf
  exact Flag.plainOf_plain hft (Flag.plain_of_flagTexts ht)

/-- With plain flags in place of its own, the group shows as it did. -/
theorem WellTyped.spelt_plainOf (h : g.WellTyped) : (g.mapFlags Flag.plainOf).spelt = g.spelt := by
  rw [spelt, spelt, erased_mapFlags, mapFlags_mapFlags]
  refine mapFlags_congr fun f hf => ?_
  rw [flags_erased] at hf
  obtain ⟨t, -, ht⟩ := h.flags f hf
  have hscript := (h.plainOf f hf).2.trans ht
  rw [Function.comp_apply, Flag.spelt_of_script hscript, Flag.spelt_of_script ht]

theorem WellTyped.spelt_eq {a b : OptionGroup} {indentation : String} (hi : Blanks indentation) (ha : a.WellTyped)
    (hb : b.WellTyped) (h : a.script indentation = b.script indentation) : a.kind = b.kind ∧ a.spelt = b.spelt := by
  have hplain : ∀ {g : OptionGroup}, g.WellTyped → Plain (g.mapFlags Flag.plainOf) := by
    intro g hg f hf
    rw [flags_mapFlags] at hf
    obtain ⟨x, hx, rfl⟩ := List.mem_map.mp hf
    exact (hg.plainOf x hx).1
  have hscript : ∀ {g : OptionGroup}, g.WellTyped →
      (g.mapFlags Flag.plainOf).script indentation = g.script indentation := fun hg =>
    script_mapFlags indentation fun f hf => (hg.plainOf f hf).2
  obtain ⟨t, ht⟩ := (script_succeeds indentation a).mpr ha.writable
  have herased := (separable hi).same_text (show GroupEnd [] from opens_nil _) ⟨hplain ha, (hscript ha).trans ht⟩
    ⟨hplain hb, (hscript hb).trans (h ▸ ht)⟩
  constructor
  · have hkind := congrArg kind herased
    rwa [kind_erased, kind_erased, kind_mapFlags, kind_mapFlags] at hkind
  · rw [← ha.spelt_plainOf, ← hb.spelt_plainOf, spelt, spelt, herased]

end OptionGroup

/-- A group whose values are of the right types can be written, and two of them with the same text are of one kind and
    hold the same, numbers being known by their texts. So are intervals, present or not and with any bounds, and lists
    of rules and of parameters. -/
theorem text_tells_group {indentation : String} (hi : Blanks indentation) :
    (∀ a : OptionGroup, a.WellTyped → ∃ t, a.script indentation = .ok t) ∧
    (∀ a b : OptionGroup, a.WellTyped → b.WellTyped → a.script indentation = b.script indentation →
      a.kind = b.kind ∧ a.spelt = b.spelt) ∧
    (∀ i j : Option Interval, (i.map Interval.script).getD "" = (j.map Interval.script).getD "" → i = j) ∧
    (∀ rs ss : List ClickableRule, rulesScript indentation rs = rulesScript indentation ss → rs = ss) ∧
    (∀ ps qs : List RegressionParameter, (∀ p ∈ ps, p.value.IsNumber) → parametersScript ps = parametersScript qs →
      ps.map (·.spelt) = qs.map (·.spelt)) := by
  refine ⟨fun a ha => (a.script_succeeds indentation).mpr ha.writable, fun a b ha hb => ha.spelt_eq hi hb, ?_, ?_, ?_⟩
  · intro i j h
    -- No interval is an empty text, so nothing at all may stand behind one.
    have hbare : Separable (· = []) (fun (i : Interval) t => i.script = t) id := fun _ _ _ _ _ _ ha hb _ _ h =>
      Interval.separable ha hb trivial trivial h
    have hfirst : ∀ (i : Interval) r, ¬ i.script.toList ++ r = [] := by
      intro i r
      simp [Interval.script]
    exact (hbare.optional hfirst).same_text rfl rfl h.symm
  · exact fun rs ss h => (rules_separable hi).same_text trivial rfl h.symm
  · intro ps qs hps h
    obtain ⟨t, ht⟩ := (parametersScript_succeeds ps).mpr hps
    exact parameters_separable.same_text (opens_nil _) ht (h ▸ ht)

/-- `1` is written as `1.0` is, and a flag as a word as it is as a text: the groups differ, but show the same. -/
theorem text_tells_regressions :
    let word := OptionGroup.regression [⟨⟨"a"⟩, .int 1⟩] none [.word .logMode]
    let text := OptionGroup.regression [⟨⟨"a"⟩, .float (.finite false ⟨4607182418800017408, by decide⟩)⟩] none
      [.given (.str "log mode")]
    Blanks "  " ∧ word ≠ text ∧ word.kind = text.kind ∧ word.spelt = text.spelt := by
  intro word text
  have hi : Blanks "  " := by simp [Blanks]
  have hword : word.WellTyped := ⟨by simp [word, OptionGroup.Presentable, Json.IsNumber], by decide⟩
  have htext : text.WellTyped := ⟨by simp [text, OptionGroup.Presentable, Json.IsNumber], by decide⟩
  exact ⟨hi, by decide, (text_tells_group hi).2.1 word text hword htext (by decide +kernel)⟩

end GraphScript
