/-
  GraphScript.Proofs.State.Flags — which flags the option groups of a translated item have.

  Every kind of group has its own words (`vocabulary`). A translated group has some of them, each at
  most once and in this order, with one exception: the flag of a histogram mode is the value of the
  document.

  - `Gives.worded`: the groups that a document is translated into.
-/
import GraphScript.Proofs.State.Sources

namespace GraphScript

open Faults

/-- The words that flags of a group of this kind may have. -/
def vocabulary : Kind → List FlagWord
  | .labelOption => [.shown, .editableMath, .editableText, .showOnHover, .noOutline]
  | .sliderOption => [.hardMin, .hardMax, .loopForward, .onceForward, .foreverForward, .left]
  | .cdfOption => [.shown]
  | .regressionOption => [.logMode]
  | .clickableRulesOption => [.disabled]
  | .displayOption => [.fraction]
  | .binsAlignedOption => [.left]
  | .dragOption => [.dragX, .dragY, .dragXY]
  | .pointsOption => [.shown, .hidden, .pointOpen, .pointCross]
  | .linesOption => [.shown, .hidden, .lineDashed, .lineDotted]
  | .fillOption => [.shown, .hidden]
  | .boxplotOption => [.includeOutliers, .alignedToY]
  | .dotplotOption => [.binnedX]
  | _ => []

/-- The flags of a group are words of its kind, in order and without repetition. -/
def OptionGroup.Worded (g : OptionGroup) : Prop :=
  g.kind ≠ .histogramModeOption → List.Sublist g.flags ((vocabulary g.kind).map .word)

theorem flagIf_sublist (condition : Bool) (w : FlagWord) : List.Sublist (flagIf condition w) [.word w] := by
  cases condition
  · exact List.nil_sublist _
  · exact List.Sublist.refl _

/-- One word of two. -/
theorem choice_sublist (condition : Bool) (v w : FlagWord) :
    List.Sublist [Flag.word (if condition then v else w)] [.word v, .word w] := by
  cases condition
  · exact List.sublist_cons_self _ _
  · exact List.Sublist.cons_cons _ (List.nil_sublist _)

theorem lookupIn_sublist {table : List (String × FlagWord)} {v : Json} {mode : Option FlagWord}
    (h : v.lookupIn table = .ok mode) : List.Sublist (mode.map Flag.word).toList ((table.map (·.2)).map .word) := by
  cases mode with
  | none => exact List.nil_sublist _
  | some w =>
    cases v with
    | str s =>
      obtain ⟨before, after, rfl, -⟩ := List.lookup_eq_some_iff.mp (Except.ok.inj h)
      have hw : (s, w) ∈ before ++ (s, w) :: after := by simp
      exact List.singleton_sublist.mpr (List.mem_map_of_mem (List.mem_map_of_mem hw))
    | arr _ | obj _ => cases h
    | _ => cases Except.ok.inj h

namespace Json.Fields

theorem visibilityFlag_sublist (fs : Fields) (key : String) :
    List.Sublist (fs.visibilityFlag key) [.word .shown, .word .hidden] := by
  unfold visibilityFlag
  split
  · exact choice_sublist _ _ _
  · exact List.nil_sublist _

theorem pointFlags_sublist (fs : Fields) : List.Sublist fs.pointFlags ((vocabulary .pointsOption).map .word) := by
  refine (fs.visibilityFlag_sublist "points").append ?_
  split
  · exact List.nil_sublist _
  · exact choice_sublist _ _ _

theorem lineFlags_sublist (fs : Fields) : List.Sublist fs.lineFlags ((vocabulary .linesOption).map .word) := by
  refine (fs.visibilityFlag_sublist "lines").append ?_
  split
  · exact List.nil_sublist _
  · exact choice_sublist _ _ _

/-- Whatever the fields give has words of its kind. -/
theorem Gives.worded {fs : Fields} {k : Kind} {g : OptionGroup} (h : fs.Gives k g) : g.Worded := by
  cases h with
  | points => exact fun _ => fs.pointFlags_sublist
  | lines => exact fun _ => fs.lineFlags_sublist
  | fill => exact fun _ => fs.visibilityFlag_sublist "fill"
  | drag hmode => exact fun _ => lookupIn_sublist hmode
  | clickableRules | regression => exact fun _ => flagIf_sublist _ _
  | slider hmode _ _ hflags =>
    subst hflags
    exact fun _ => (((flagIf_sublist _ _).append (flagIf_sublist _ _)).append (lookupIn_sublist hmode)).append
      (flagIf_sublist _ _)
  | cdf _ hflags =>
    subst hflags
    exact fun _ => flagIf_sublist _ _
  | label hmode _ _ hflags =>
    subst hflags
    exact fun _ => (((flagIf_sublist _ _).append (lookupIn_sublist hmode)).append (flagIf_sublist _ _)).append
      (flagIf_sublist _ _)
  | boxplot _ _ hflags =>
    subst hflags
    exact fun _ => (flagIf_sublist _ _).append (flagIf_sublist _ _)
  | histogramMode => exact fun hk => absurd rfl hk
  | display | binsAligned | dotplot => exact fun _ => List.Sublist.refl _
  | color | fps | name | image | clickableLabel | polarDomain | domain => exact fun _ => List.nil_sublist _

theorem styling_worded {fs : Fields} {gs : List OptionGroup} (h : fs.styling = .ok gs) : ∀ g ∈ gs, g.Worded := by
  obtain ⟨os, rfl, hos⟩ := styling_given h
  intro g hg
  obtain ⟨k, -, hgives⟩ := gives_of_mem hos g hg
  exact hgives.worded

end Json.Fields

/-! ## Columns and items -/

theorem Column.ofJson_worded {j : Json} {c : Column} (h : Column.ofJson j = .ok c) : ∀ g ∈ c.options, g.Worded := by
  obtain ⟨fs, -, hgiven⟩ := Column.ofJson_given h
  intro g hg
  obtain ⟨k, -, hgives⟩ := hgiven g hg
  exact hgives.worded

theorem ItemKind.groups_worded {fs : Json.Fields} {kind : ItemKind} {gs : List OptionGroup}
    (h : kind.groups fs = .ok gs) : ∀ g ∈ gs, g.Worded := by
  obtain ⟨os, rfl, hos⟩ := ItemKind.groups_given h
  intro g hg
  obtain ⟨k, -, hgives⟩ := Json.Fields.gives_of_mem hos g hg
  exact hgives.worded

theorem Item.ofJson_worded {j : Json} {t : Item Affix} (h : Item.ofJson j = .ok t) : ∀ g ∈ t.options, g.Worded := by
  obtain ⟨fs, id, kind, -, -, hgiven⟩ := Item.ofJson_given h
  intro g hg
  rcases hgiven g hg with rfl | ⟨k, -, hgives⟩
  · exact fun _ => List.nil_sublist _
  · exact hgives.worded

end GraphScript
