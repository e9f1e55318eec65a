/-
  GraphScript.Proofs.Script.Literals — literals, numbers and intervals close themselves.

  A literal may hold anything, its own mark included: a mark that stands once ends it, so it must
  not be followed by another one. A number ends before the first character that no number has.
-/
import GraphScript.Proofs.Script.Separation
import GraphScript.Proofs.State.Fields

namespace GraphScript

open Faults

/-! ## Literals -/

theorem doubled_append {mark : Char} {a b r s : List Char} (hr : Opens (· != mark) r) (hs : Opens (· != mark) s)
    (h : Text.doubled mark a ++ mark :: r = Text.doubled mark b ++ mark :: s) : a = b ∧ r = s := by
  induction a generalizing b with
  | nil =>
    cases b with
    | nil => exact ⟨rfl, List.tail_eq_of_cons_eq h⟩
    | cons d b =>
      by_cases hd : d = mark
      · -- A mark of the other literal stands twice, the one that ends this literal once.
        simp only [Text.doubled, hd, if_true, List.nil_append, List.cons_append, List.cons.injEq, true_and] at h
        rw [h] at hr
        simp at hr
      · simp only [Text.doubled, hd, if_false, List.nil_append, List.cons_append, List.cons.injEq] at h
        exact absurd h.1.symm hd
  | cons c a ih =>
    by_cases hc : c = mark
    · subst hc
      cases b with
      | nil =>
        simp only [Text.doubled, if_true, List.nil_append, List.cons_append, List.cons.injEq, true_and] at h
        rw [← h] at hs
        simp at hs
      | cons d b =>
        by_cases hd : d = c
        · subst hd
          simp only [Text.doubled, if_true, List.cons_append, List.cons.injEq, true_and] at h
          obtain ⟨rfl, hrs⟩ := ih h
          exact ⟨rfl, hrs⟩
        · simp only [Text.doubled, hd, if_true, if_false, List.cons_append, List.cons.injEq] at h
          exact absurd h.1.symm hd
    · cases b with
      | nil =>
        simp only [Text.doubled, hc, if_false, List.cons_append, List.nil_append, List.cons.injEq, false_and] at h
      | cons d b =>
        by_cases hd : d = mark
        · rw [Text.doubled, Text.doubled, if_neg hc, if_pos hd] at h
          exact absurd (List.head_eq_of_cons_eq h) hc
        · simp only [Text.doubled, hc, hd, if_false, List.cons_append, List.cons.injEq] at h
          obtain ⟨rfl, h⟩ := h
          obtain ⟨rfl, hrs⟩ := ih h
          exact ⟨rfl, hrs⟩

theorem toList_quoted (mark : Char) (s : String) :
    (Text.quoted mark s).toList = mark :: Text.doubled mark s.toList ++ [mark] := by
  rw [Text.quoted, String.toList_ofList]

theorem quoted_separable (mark : Char) : Separable (Opens (· != mark)) (fun s t => Text.quoted mark s = t) id := by
  intro a b _ _ r s et eu hr hs h
  subst et eu
  simp only [toList_quoted, List.cons_append, List.append_assoc, List.cons.injEq, true_and, List.nil_append] at h
  obtain ⟨hab, hrs⟩ := doubled_append hr hs h
  exact ⟨String.toList_inj.mp hab, hrs⟩

theorem Latex.separable : Separable (Opens (· != '\x60')) (fun l t => Latex.script l = t) id := by
  intro a b t u r s ha hb hr hs h
  obtain ⟨hab, hrs⟩ := (quoted_separable '\x60').eq ha hb hr hs h
  exact ⟨by cases a; cases b; exact congrArg Latex.mk hab, hrs⟩

theorem Json.stringScript_eq_ok {j : Json} {t : String} :
    j.stringScript = .ok t ↔ ∃ s, j = .str s ∧ GraphScript.stringScript s = t := by
  cases j <;> simp [Json.stringScript]

theorem Json.string_separable : Separable (Opens (· != '"')) (fun j t => Json.stringScript j = .ok t) id := by
  intro a b t u r s ha hb hr hs h
  obtain ⟨x, rfl, hx⟩ := Json.stringScript_eq_ok.mp ha
  obtain ⟨y, rfl, hy⟩ := Json.stringScript_eq_ok.mp hb
  obtain ⟨hxy, hrs⟩ := (quoted_separable '"').eq hx hy hr hs h
  exact ⟨congrArg Json.str hxy, hrs⟩

/-- A text that may be null, in surroundings of its own where it is not. -/
theorem Json.optional_separable {follow : List Char → Prop} {layout : String → String}
    (hw : Separable follow (fun j t => ∃ x, Json.stringScript j = .ok x ∧ layout x = t) id)
    (hfirst : ∀ s r, ¬follow ((layout (GraphScript.stringScript s)).toList ++ r)) :
    Separable follow (fun j t => ∃ o, Json.present Json.stringScript j = .ok o ∧ (o.map layout).getD "" = t) id := by
  intro a b t u r s ha hb hr hs h
  have hopt : ∀ {j : Json} {t : String}, (∃ o, j.present Json.stringScript = .ok o ∧ (o.map layout).getD "" = t) →
      Optionally (fun j t => ∃ x, Json.stringScript j = .ok x ∧ layout x = t) (if j.isNull then none else some j) t := by
    intro j t w
    obtain ⟨o, ho, ht⟩ := w
    rcases Json.present_eq_ok.mp ho with ⟨rfl, rfl⟩ | ⟨hn, x, hx, rfl⟩
    · exact ht
    · rw [if_neg fun h => hn (Json.isNull_iff.mp h)]
      exact ⟨x, hx, ht⟩
  have hne : ∀ j t r, (∃ x, Json.stringScript j = .ok x ∧ layout x = t) → ¬follow (t.toList ++ r) := by
    intro j t r w
    obtain ⟨x, hx, ht⟩ := w
    obtain ⟨s, -, rfl⟩ := Json.stringScript_eq_ok.mp hx
    exact ht ▸ hfirst s r
  obtain ⟨hab, hrs⟩ := hw.optionally hne (hopt ha) (hopt hb) hr hs h
  refine ⟨?_, hrs⟩
  by_cases hna : a.isNull = true <;> by_cases hnb : b.isNull = true <;> simp only [hna, hnb] at hab
  · rw [Json.isNull_iff.mp hna, Json.isNull_iff.mp hnb]
  · cases hab
  · cases hab
  · exact Option.some.inj hab

theorem toList_latex (l : Latex) :
    l.script.toList = '\x60' :: Text.doubled '\x60' l.text.toList ++ ['\x60'] := toList_quoted ..

theorem toList_stringScript (s : String) :
    (stringScript s).toList = '"' :: Text.doubled '"' s.toList ++ ['"'] := toList_quoted ..

/-! ## Numbers -/

def isNumberChar (c : Char) : Bool := c.isAlphanum || c = '+' || c = '-' || c = '.'

theorem isNumberChar_of_isDigit {c : Char} (h : c.isDigit = true) : isNumberChar c = true := by
  simp [isNumberChar, Char.isAlphanum, h]

/-- A text that numbers have. -/
def Numeric (s : String) : Prop := ∀ c ∈ s.toList, isNumberChar c = true

instance (s : String) : Decidable (Numeric s) := decidable_of_iff (s.toList.all isNumberChar = true) List.all_eq_true

theorem Numeric.append {s t : String} (hs : Numeric s) (ht : Numeric t) : Numeric (s ++ t) := by
  intro c hc
  rw [String.toList_append, List.mem_append] at hc
  exact hc.elim (hs c) (ht c)

theorem numeric_ofList {l : List Char} (h : ∀ c ∈ l, c.isDigit = true) : Numeric (String.ofList l) := by
  intro c hc
  rw [String.toList_ofList] at hc
  exact isNumberChar_of_isDigit (h c hc)

theorem isDigit_of_mem_toDigits {n : Nat} {c : Char} (h : c ∈ Nat.toDigits 10 n) : c.isDigit = true :=
  Nat.isDigit_of_mem_toDigits (by decide) (by decide) h

theorem numeric_zeros (n : Nat) : Numeric (Layout.zeros n) :=
  numeric_ofList fun c hc => by rw [(List.mem_replicate.mp hc).2]; decide

theorem numeric_nat (n : Nat) : Numeric (toString n) := by
  show Numeric n.repr
  rw [Nat.repr]
  exact numeric_ofList fun c hc => isDigit_of_mem_toDigits hc

theorem numeric_int (n : Int) : Numeric (toString n) := by
  cases n with
  | ofNat m => exact numeric_nat m
  | negSucc m =>
    show Numeric ("-" ++ _)
    exact Numeric.append (by decide) (numeric_nat _)

theorem Decimal.ofScaled_digits (digits : Nat) (exponent : Int) :
    ∀ c ∈ (Decimal.ofScaled digits exponent).digits, c.isDigit = true := by
  intro c hc
  simp only [Decimal.ofScaled, List.mem_reverse] at hc
  have := (List.dropWhile_sublist _).subset hc
  exact isDigit_of_mem_toDigits (List.mem_reverse.mp this)

theorem Binary64.shortest_digits (rank : Nat) : ∀ c ∈ (Binary64.shortest rank).digits, c.isDigit = true := by
  simp only [Binary64.shortest]
  cases hf : (List.range 17).findSome? _ with
  | none => exact Decimal.ofScaled_digits _ _
  | some d =>
    obtain ⟨more, -, hd⟩ := List.exists_of_findSome?_eq_some hf
    obtain ⟨digits, -, rfl⟩ := Option.map_eq_some_iff.mp hd
    exact Decimal.ofScaled_digits _ _

/-- What a layout writes beside digits, points and signs is such a text too. -/
def Layout.Numeric (l : Layout) : Prop := ∀ s ∈ [l.whole, l.nan, l.infinity], GraphScript.Numeric s

instance (l : Layout) : Decidable l.Numeric :=
  decidable_of_iff (([l.whole, l.nan, l.infinity].all fun s => s.toList.all isNumberChar) = true) <| by
    simp only [List.all_eq_true]
    exact Iff.rfl

namespace Layout

variable {l : Layout} (hl : l.Numeric)

include hl

theorem numeric_decimal {d : Decimal} (hd : ∀ c ∈ d.digits, c.isDigit = true) : GraphScript.Numeric (l.decimal d) := by
  have htake : ∀ n, GraphScript.Numeric (String.ofList (d.digits.take n)) := fun n =>
    numeric_ofList fun c hc => hd c (List.mem_of_mem_take hc)
  have hdrop : ∀ n, GraphScript.Numeric (String.ofList (d.digits.drop n)) := fun n =>
    numeric_ofList fun c hc => hd c (List.mem_of_mem_drop hc)
  have hlit : ∀ s ∈ ["", "0.", ".", "e", "-", "+"], GraphScript.Numeric s := by decide
  rw [decimal]
  split
  · simp only [positional]
    split
    · exact ((hlit _ (by simp)).append (numeric_zeros _)).append (numeric_ofList hd)
    · split
      · exact ((numeric_ofList hd).append (numeric_zeros _)).append (hl _ (by simp))
      · exact ((htake _).append (hlit _ (by simp))).append (hdrop _)
  · simp only [scientific]
    have hwritten : GraphScript.Numeric (String.ofList (Nat.toDigits 10 (d.point - 1).natAbs)) :=
      numeric_ofList fun c hc => isDigit_of_mem_toDigits hc
    refine (((((htake 1).append ?_).append (hlit _ (by simp))).append ?_).append (numeric_zeros _)).append hwritten
    · split
      · exact hlit _ (by simp)
      · exact (hlit _ (by simp)).append (hdrop 1)
    · split <;> exact hlit _ (by simp)

theorem numeric_text (x : Binary64) : GraphScript.Numeric (l.text x) := by
  have hsign : ∀ negative, GraphScript.Numeric (sign negative) := by decide
  cases x with
  | finite negative rank =>
    rw [text]
    split
    · exact ((hsign _).append (by decide)).append (hl _ (by simp))
    · exact (hsign _).append (numeric_decimal hl (Binary64.shortest_digits _))
  | infinity negative => exact (hsign _).append (hl _ (by simp))
  | nan => exact hl l.nan (by simp)

end Layout

theorem Json.numberScript_numeric {j : Json} {t : String} (h : j.numberScript = .ok t) : Numeric t := by
  cases j with
  | bool b =>
    obtain rfl := Except.ok.inj h
    cases b <;> decide
  | int n =>
    obtain rfl := Except.ok.inj h
    exact numeric_int n
  | float x =>
    obtain rfl := Except.ok.inj h
    exact Layout.numeric_text (by decide) x
  | null | str _ | arr _ | obj _ => cases h

/-- A number as its text, any other value as it is. -/
def Json.spelt (j : Json) : Json :=
  match j.numberScript with
  | .ok text => .str text
  | .error _ => j

theorem Json.number_separable :
    Separable (Opens (!isNumberChar ·)) (fun j t => Json.numberScript j = .ok t) Json.spelt := by
  intro a b t u r s ha hb hr hs h
  obtain ⟨htu, hrs⟩ := append_eq_of_class (Json.numberScript_numeric ha) (Json.numberScript_numeric hb) hr hs h
  obtain rfl := String.toList_inj.mp htu
  exact ⟨by rw [Json.spelt, Json.spelt, ha, hb], hrs⟩

/-! ## Intervals -/

theorem bound_separable : Separable (Opens (· != '\x60')) (fun b t => boundScript b = t) id :=
  Latex.separable.optional fun l r => by simp [toList_latex]

/-- The step behind a second colon. -/
theorem step_separable :
    Separable (Opens (· == ']')) (fun step t => (Option.map (":" ++ Latex.script ·) step).getD "" = t) id := by
  refine Separable.optional ?_ fun l r => by simp
  intro a b _ _ r s ha hb hr hs h
  subst ha hb
  simp only [String.toList_append, List.append_assoc, List.append_cancel_left_eq] at h
  exact Latex.separable rfl rfl (hr.mono (by simp)) (hs.mono (by simp)) h

theorem Interval.script_eq (i : Interval) : i.script =
    "[" ++ boundScript i.min ++ ":" ++ boundScript i.max ++ (i.step.map (":" ++ Latex.script ·)).getD "" ++ "]" := by
  rw [Interval.script]
  cases i.step <;> rfl

theorem Interval.separable : Separable (fun _ => True) (fun i t => Interval.script i = t) id := by
  intro a b _ _ r s et eu _ _ h
  obtain ⟨min, max, step⟩ := a
  obtain ⟨min', max', step'⟩ := b
  subst et eu
  simp only [Interval.script_eq, String.toList_append, List.append_assoc, List.append_cancel_left_eq] at h
  obtain ⟨rfl, h1⟩ := bound_separable.eq rfl rfl (by simp) (by simp) h
  have hstep : ∀ (step : Option Latex) r, Opens (· != '\x60')
      (((step.map (":" ++ Latex.script ·)).getD "").toList ++ ("]".toList ++ r)) := by
    intro step r
    cases step <;> simp
  obtain ⟨rfl, h2⟩ := bound_separable.eq rfl rfl (hstep _ _) (hstep _ _) (List.append_cancel_left h1)
  obtain ⟨rfl, h3⟩ := step_separable.eq rfl rfl (by simp) (by simp) h2
  exact ⟨rfl, List.append_cancel_left h3⟩

def NumberInterval.spelt (i : NumberInterval) : NumberInterval := ⟨i.start.spelt, i.stop.spelt⟩

theorem NumberInterval.separable :
    Separable (fun _ => True) (fun i t => NumberInterval.script i = .ok t) NumberInterval.spelt := by
  intro p q t u r s ht hu _ _ h
  obtain ⟨a, b⟩ := p
  obtain ⟨a', b'⟩ := q
  simp only [NumberInterval.script, bind_eq_ok, pure_eq, Except.ok.injEq] at ht hu
  obtain ⟨x, hx, y, hy, rfl⟩ := ht
  obtain ⟨x', hx', y', hy', rfl⟩ := hu
  simp only [String.toList_append, List.append_assoc, List.append_cancel_left_eq] at h
  obtain ⟨ha, h⟩ := Json.number_separable hx hx' (by simp; decide) (by simp; decide) h
  obtain ⟨hb, h⟩ := Json.number_separable hy hy' (by simp; decide) (by simp; decide) (List.append_cancel_left h)
  exact ⟨by rw [NumberInterval.spelt, NumberInterval.spelt, ha, hb], List.append_cancel_left h⟩

end GraphScript
