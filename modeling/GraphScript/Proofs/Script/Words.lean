/-
  GraphScript.Proofs.Script.Words — keywords and flags.

  A keyword ends at its colon, a flag before a comma, a semicolon or the end of the line, and a small
  flag at its blank. No two keywords of one sort and no two flags have the same text.
-/
import GraphScript.Proofs.Faults
import GraphScript.Proofs.Script.Separation
import GraphScript.Program.Script
import Mathlib.Data.List.Nodup

namespace GraphScript

open Faults

/-- The characters of keywords and flags. -/
def isWordChar (c : Char) : Bool := c.isAlpha || c = ' ' || c = '-'

/-! ## Keywords -/

def OptionGroup.kinds : List Kind := [
  .idOption, .colorOption, .labelOption, .sliderOption, .domainOption, .polarDomainOption, .cdfOption,
  .regressionOption, .fpsOption, .clickableRulesOption, .clickableLabelOption, .nameOption, .displayOption,
  .binsAlignedOption, .histogramModeOption, .dragOption, .pointsOption, .linesOption, .fillOption, .boxplotOption,
  .dotplotOption, .imageOption]

theorem OptionGroup.kind_mem (g : OptionGroup) : g.kind ∈ kinds := by cases g <;> simp [kind, kinds]

def Setting.kinds : List Kind :=
  [.seed, .flags, .viewport, .minorSubdivisions, .axisSteps, .axisArrows, .axisLabels, .axes, .axisNumbers]

theorem Setting.kind_mem (s : Setting) : s.kind ∈ kinds := by cases s <;> simp [kind, kinds]

theorem keyword_isWordChar : ∀ k ∈ Kind.all, ∀ c ∈ k.keyword.toList, isWordChar c = true := by
  have hall : ∀ k ∈ Kind.all, k.keyword.toList.all isWordChar = true := by decide
  exact fun k hk => List.all_eq_true.mp (hall k hk)

theorem Kind.mem_all (k : Kind) : k ∈ all := by cases k <;> decide

/-- A keyword up to its colon tells the kind, among kinds of different keywords. -/
theorem keyword_append {kinds : List Kind} (hn : (kinds.map Kind.keyword).Nodup) {k l : Kind} {r s : List Char}
    (hk : k ∈ kinds) (hl : l ∈ kinds) (h : k.keyword.toList ++ ':' :: r = l.keyword.toList ++ ':' :: s) :
    k = l ∧ r = s := by
  obtain ⟨hkl, hrs⟩ := append_eq_of_class (keyword_isWordChar k k.mem_all) (keyword_isWordChar l l.mem_all)
    (by simp; decide) (by simp; decide) h
  exact ⟨List.inj_on_of_nodup_map hn hk hl (String.toList_inj.mp hkl), List.tail_eq_of_cons_eq hrs⟩

theorem OptionGroup.keyword_nodup : (kinds.map Kind.keyword).Nodup := by decide

theorem Setting.keyword_nodup : (kinds.map Kind.keyword).Nodup := by decide

/-! ## Flags -/

def FlagWord.all : List FlagWord := [
  .degrees, .radians, .gridShown, .gridHidden, .polarGrid, .cartesianGrid, .squareAxes, .noSquareAxes,
  .firstQuadrant, .allQuadrants,
  .shown, .hidden, .pointOpen, .pointCross, .lineDashed, .lineDotted,
  .dragX, .dragY, .dragXY,
  .hardMin, .hardMax, .loopForward, .onceForward, .foreverForward, .left,
  .editableMath, .editableText, .showOnHover, .noOutline,
  .fraction, .binnedX, .includeOutliers, .alignedToY, .logMode, .disabled]

theorem FlagWord.mem_all (w : FlagWord) : w ∈ all := by cases w <;> decide

/-- The modes of a histogram that have a flag. -/
def knownModes : List Flag := [.given (.str "relative"), .given (.str "density")]

/-- The flags that may stand in a script. -/
def Flag.plain : List Flag := FlagWord.all.map .word ++ knownModes

theorem Flag.word_plain (w : FlagWord) : .word w ∈ Flag.plain :=
  List.mem_append_left _ (List.mem_map_of_mem w.mem_all)

/-- Each plain flag has a text of word characters, which begins with a letter, and no other has the same one. -/
theorem Flag.plain_texts : (plain.map (·.script.toOption)).Nodup ∧ ∀ f ∈ plain, ∃ t, f.script.toOption = some t ∧
    t.toList.all isWordChar = true ∧ t.toList.head?.any (·.isAlpha) = true := by
  decide

theorem Flag.plain_text {f : Flag} {t : String} (hf : f ∈ plain) (ht : f.script = .ok t) :
    (∀ c ∈ t.toList, isWordChar c = true) ∧ ∃ c ∈ t.toList.head?, c.isAlpha = true := by
  obtain ⟨t', h, hw⟩ := plain_texts.2 f hf
  rw [ht] at h
  cases h
  exact ⟨List.all_eq_true.mp hw.1, (Option.any_eq_true _ _).mp hw.2⟩

theorem Flag.separable :
    Separable (Opens (!isWordChar ·)) (fun f t => f ∈ Flag.plain ∧ Flag.script f = .ok t) id := by
  intro a b t u r s wa wb hr hs h
  obtain ⟨ha, ht⟩ := wa
  obtain ⟨hb, hu⟩ := wb
  obtain ⟨htu, hrs⟩ := append_eq_of_class (plain_text ha ht).1 (plain_text hb hu).1 hr hs h
  obtain rfl := String.toList_inj.mp htu
  have hab : a.script.toOption = b.script.toOption := by rw [ht, hu]
  exact ⟨List.inj_on_of_nodup_map plain_texts.1 ha hb hab, hrs⟩

/-! ## Small flags -/

theorem SmallFlag.mem_all (f : SmallFlag) : f ∈ all := by cases f <;> decide

theorem SmallFlag.separable : Separable (fun _ => True) (fun f t => SmallFlag.word f ++ " " = t) id := by
  have hall : (all.map word).Nodup ∧ ∀ f ∈ all, f.word.toList.all (·.isAlpha) = true := by decide
  have halpha : ∀ f : SmallFlag, ∀ c ∈ f.word.toList, c.isAlpha = true := fun f =>
    List.all_eq_true.mp (hall.2 f f.mem_all)
  intro a b _ _ r s et eu _ _ h
  subst et eu
  rw [String.toList_append, String.toList_append, List.append_assoc, List.append_assoc] at h
  obtain ⟨hab, hrs⟩ := append_eq_of_class (halpha a) (halpha b) (by simp) (by simp) h
  exact ⟨List.inj_on_of_nodup_map hall.1 a.mem_all b.mem_all (String.toList_inj.mp hab),
    List.append_cancel_left hrs⟩

/-- No small flag comes next. -/
def FlagsEnd (r : List Char) : Prop := ∀ f : SmallFlag, ¬ (f.word ++ " ").toList <+: r

theorem flagsBefore_separable : Separable FlagsEnd (fun flags t => flagsBefore flags = t) id := by
  have he : Ends "" (fun f t => SmallFlag.word f ++ " " = t) (fun _ => True) FlagsEnd :=
    ⟨fun _ _ => trivial, fun _ => trivial, fun f t r ht h => h f (by simp [← ht])⟩
  have h := SmallFlag.separable.chained he
  rw [List.map_id_fun] at h
  have hflags : ∀ {flags : List SmallFlag} {t}, flagsBefore flags = t →
      Chained "" (fun f t => SmallFlag.word f ++ " " = t) flags t := by
    intro flags _ et
    subst et
    refine ⟨flags.map (·.word ++ " "), List.forall₂_map_right_iff.mpr (List.forall₂_same.mpr fun _ _ => rfl), ?_⟩
    rw [flagsBefore, List.map_map]
    simp only [Function.comp_def, String.empty_append]
  intro a b t u r s ha hb
  exact h (hflags ha) (hflags hb)

end GraphScript
