/-
  GraphScript.Proofs.Script.Blocks — blocks close where they are seen to.

  The lines of a block stand further in than its closing brace. A literal may hold a line break and a
  brace, but a line that has ended is followed either by a line that stands further in or by the brace.
-/
import GraphScript.Proofs.Script.Literals

namespace GraphScript

open Faults

variable {α β : Type}

/-- A line ends at a line break or at the end of the script. -/
def LineEnd : List Char → Prop := Opens (· == '\n')

@[simp] theorem lineEnd_nil : LineEnd [] := opens_nil _

@[simp] theorem lineEnd_cons {c : Char} {r : List Char} : LineEnd (c :: r) ↔ c = '\n' := by simp [LineEnd]

/-- An indentation is made of blanks. -/
def Blanks (indentation : String) : Prop := ∀ c ∈ indentation.toList, c = ' '

theorem Blanks.indented {indentation : String} (h : Blanks indentation) : Blanks (indented indentation) := by
  intro c hc
  rw [GraphScript.indented, String.toList_append, List.mem_append] at hc
  rcases hc with hc | hc
  · exact h c hc
  · simpa using hc

theorem toList_indented (indentation : String) : (indented indentation).toList = indentation.toList ++ [' ', ' '] := by
  rw [indented, String.toList_append]
  simp

/-- What is indented starts further in than the first column. -/
theorem Blanks.indented_cons {indentation : String} (h : Blanks indentation) :
    ∃ r, (GraphScript.indented indentation).toList = ' ' :: r := by
  rw [toList_indented]
  cases hi : indentation.toList with
  | nil => exact ⟨[' '], rfl⟩
  | cons c r => exact ⟨r ++ [' ', ' '], by rw [h c (by simp [hi]), List.cons_append]⟩

/-! ## Blocks -/

/-- A block of the lines that are written. -/
def Blocked (closing : String) (writes : α → String → Prop) (as : List α) (t : String) : Prop :=
  ∃ ts, List.Forall₂ writes as ts ∧ block closing ts = t

theorem toList_block_cons (closing t : String) (ts : List String) :
    (block closing (t :: ts)).toList = '\x7b' :: ((String.join ((t :: ts).map ("\n" ++ ·))).toList
      ++ '\n' :: (closing.toList ++ ['\x7d'])) := by
  rw [block, if_neg (by simp)]
  simp [Text.toList_joined_cons]

theorem toList_block (closing : String) (ts : List String) : ∃ r, (block closing ts).toList = '\x7b' :: r := by
  cases ts with
  | nil => exact ⟨[' ', '\x7d'], by simp [block]⟩
  | cons t ts => exact ⟨_, toList_block_cons closing t ts⟩

/-- What stands in a line is told from a brace in the column of `closing`. -/
theorem Ends.block {closing : String} {writes : α → String → Prop}
    (hdeep : ∀ a t, writes a t → ∃ r, t.toList = closing.toList ++ ' ' :: r) :
    Ends "\n" writes LineEnd fun r => ∃ r', r = '\n' :: (closing.toList ++ '\x7d' :: r') := by
  refine ⟨?_, fun r => by simp, ?_⟩
  · intro _ w
    obtain ⟨r, rfl⟩ := w
    exact lineEnd_cons.mpr rfl
  · intro a t r ha w
    obtain ⟨r', h⟩ := w
    obtain ⟨t', ht⟩ := hdeep a t ha
    rw [ht] at h
    simp at h

theorem Separable.block {closing : String} {writes : α → String → Prop} {meaning : α → β}
    (hw : Separable LineEnd writes meaning) (hdeep : ∀ a t, writes a t → ∃ r, t.toList = closing.toList ++ ' ' :: r) :
    Separable (fun _ => True) (Blocked closing writes) (List.map meaning) := by
  intro as bs _ _ r s wa wb _ _ h
  obtain ⟨ts, ha, rfl⟩ := wa
  obtain ⟨us, hb, rfl⟩ := wb
  have hopen : (GraphScript.block closing []).toList = ['\x7b', ' ', '\x7d'] := by
    rw [GraphScript.block, if_pos (by rfl)]
    simp
  cases ha with
  | nil =>
    cases hb with
    | nil => exact ⟨rfl, by simpa using h⟩
    | cons hu hus =>
      rw [hopen, toList_block_cons, toList_join_map] at h
      simp at h
  | cons ht hts =>
    cases hb with
    | nil =>
      rw [hopen, toList_block_cons, toList_join_map] at h
      simp at h
    | cons hu hus =>
      simp only [toList_block_cons, List.cons_append, List.append_assoc, List.cons.injEq, true_and,
        List.nil_append] at h
      obtain ⟨hm, h⟩ := hw.chained (Ends.block hdeep) ⟨_, .cons ht hts, rfl⟩ ⟨_, .cons hu hus, rfl⟩
        ⟨r, rfl⟩ ⟨s, rfl⟩ h
      simp only [List.cons.injEq, true_and, List.append_cancel_left_eq] at h
      exact ⟨hm, h⟩

/-! ## Rules -/

/-- The id at the end of a rule. -/
theorem ruleId_separable :
    Separable LineEnd (fun id t => (Option.map ("; id: " ++ stringScript ·) id).getD "" = t) id := by
  refine Separable.optional ?_ fun i r => by simp
  intro a b _ _ r s ha hb hr hs h
  subst ha hb
  simp only [String.toList_append, List.append_assoc, List.append_cancel_left_eq] at h
  exact quoted_separable '"' rfl rfl (hr.mono (by simp)) (hs.mono (by simp)) h

theorem ClickableRule.script_eq (indentation : String) (r : ClickableRule) : r.script indentation =
    indentation ++ r.assignment.script ++ " <- " ++ r.expression.script ++
      (r.id.map ("; id: " ++ stringScript ·)).getD "" := by
  rw [ClickableRule.script]
  cases r.id <;> rfl

theorem rule_separable (indentation : String) :
    Separable LineEnd (fun r t => ClickableRule.script indentation r = t) id := by
  intro p q _ _ r s et eu hr hs h
  obtain ⟨i, a, e⟩ := p
  obtain ⟨i', a', e'⟩ := q
  subst et eu
  simp only [ClickableRule.script_eq, String.toList_append, List.append_assoc, List.append_cancel_left_eq] at h
  obtain ⟨rfl, h1⟩ := Latex.separable.eq rfl rfl (by simp) (by simp) h
  have hid : ∀ (i : Option String) r, LineEnd r → Opens (· != '\x60')
      (((i.map ("; id: " ++ stringScript ·)).getD "").toList ++ r) := by
    intro i r hr
    cases i with
    | none => exact hr.mono (by simp)
    | some i => simp
  obtain ⟨rfl, h2⟩ := Latex.separable.eq rfl rfl (hid i r hr) (hid i' s hs) (List.append_cancel_left h1)
  obtain ⟨rfl, h3⟩ := ruleId_separable.eq rfl rfl hr hs h2
  exact ⟨rfl, h3⟩

theorem rules_separable {indentation : String} (hi : Blanks indentation) :
    Separable (fun _ => True) (fun rs t => rulesScript indentation rs = t) id := by
  have hdeep : ∀ (rule : ClickableRule) t, rule.script (indented indentation) = t →
      ∃ r, t.toList = "".toList ++ ' ' :: r := by
    intro rule _ et
    subst et
    obtain ⟨r, hr⟩ := hi.indented_cons
    exact ⟨r ++ _, by simp only [ClickableRule.script, String.toList_append, hr, List.append_assoc]; rfl⟩
  have h := (rule_separable (indented indentation)).block hdeep
  rw [List.map_id_fun] at h
  have hrules : ∀ {rs : List ClickableRule} {t}, rulesScript indentation rs = t →
      Blocked "" (fun r t => ClickableRule.script (indented indentation) r = t) rs t := by
    intro rs _ et
    subst et
    exact ⟨_, List.forall₂_map_right_iff.mpr (List.forall₂_same.mpr fun _ _ => rfl), rfl⟩
  intro a b t u r s ha hb
  exact h (hrules ha) (hrules hb)

/-! ## Regression parameters -/

def RegressionParameter.spelt (p : RegressionParameter) : RegressionParameter := { p with value := p.value.spelt }

theorem RegressionParameter.separable : Separable (Opens (!isNumberChar ·))
    (fun p t => RegressionParameter.script p = .ok t) RegressionParameter.spelt := by
  intro a b t u r s ht hu hr hs h
  obtain ⟨p, v⟩ := a
  obtain ⟨p', v'⟩ := b
  simp only [RegressionParameter.script, bind_eq_ok, pure_eq, Except.ok.injEq] at ht hu
  obtain ⟨x, hx, rfl⟩ := ht
  obtain ⟨y, hy, rfl⟩ := hu
  simp only [String.toList_append, List.append_assoc] at h
  obtain ⟨rfl, h1⟩ := Latex.separable.eq rfl rfl (by simp) (by simp) h
  obtain ⟨hv, hrs⟩ := Json.number_separable hx hy hr hs (List.append_cancel_left h1)
  exact ⟨by rw [RegressionParameter.spelt, RegressionParameter.spelt, hv], hrs⟩

/-- Parameters are closed by a brace. -/
theorem parameters_separable : Separable (Opens (· == '\x7d'))
    (fun ps t => parametersScript ps = .ok t) (List.map RegressionParameter.spelt) := by
  have hfirst : ∀ p t, RegressionParameter.script p = .ok t → ∃ r, t.toList = '\x60' :: r := by
    intro p t ht
    simp only [RegressionParameter.script, bind_eq_ok, pure_eq, Except.ok.injEq] at ht
    obtain ⟨x, -, rfl⟩ := ht
    exact ⟨_, by simp only [String.toList_append, toList_latex, List.cons_append]; rfl⟩
  have he : Ends ", " (fun p t => RegressionParameter.script p = .ok t) (Opens (!isNumberChar ·))
      (Opens (· == '\x7d')) := by
    refine ⟨fun r hr => hr.mono fun c hc => ?_, fun r => by simp; decide, fun p t r _ h => by simp at h⟩
    rw [beq_iff_eq] at hc
    rw [hc]
    decide
  have hj := RegressionParameter.separable.joined he fun p t r ht h => by
    obtain ⟨t', ht'⟩ := hfirst p t ht
    simp [ht'] at h
  intro as bs t u r s ha hb hr hs h
  -- A blank stands for no parameters; it begins no parameter.
  have hcases : ∀ {ps : List RegressionParameter} {t}, parametersScript ps = .ok t →
      (ps = [] ∧ t = " ") ∨
        Joined ", " (fun p t => RegressionParameter.script p = .ok t) ps t ∧ ∃ r, t.toList = '\x60' :: r := by
    intro ps t h
    cases ps with
    | nil => exact .inl ⟨rfl, (Except.ok.inj h).symm⟩
    | cons p ps =>
      simp only [parametersScript, List.isEmpty_cons, Bool.false_eq_true, if_false, map_eq_ok, mapM_eq_ok] at h
      obtain ⟨ts, hts, rfl⟩ := h
      refine .inr ⟨⟨ts, hts, rfl⟩, ?_⟩
      cases hts with
      | cons ht hts =>
        obtain ⟨r, hr⟩ := hfirst _ _ ht
        exact ⟨r ++ _, by rw [Text.toList_joined_cons, hr, List.cons_append]⟩
  rcases hcases ha with ⟨rfl, rfl⟩ | ⟨ha, t', ht⟩ <;> rcases hcases hb with ⟨rfl, rfl⟩ | ⟨hb, u', hu⟩
  · exact ⟨rfl, by simpa using h⟩
  · simp [hu] at h
  · simp [ht] at h
  · exact hj ha hb hr hs h

end GraphScript
