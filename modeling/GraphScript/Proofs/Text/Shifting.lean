/-
  GraphScript.Proofs.Text.Shifting — texts that are moved to the right.

  A text is shifted when an indentation is put before each of its lines; lines that begin with a
  closing brace may be left where they are (`shifted`).

  A text is shifted part by part. One part moves to another if it becomes the other where the
  indentation is put behind its line breaks, whatever follows (`Moves`), so parts that move can be
  put together. What stands behind a line break is a part together with the line break: whether the
  indentation is put there depends on how it begins.

  - `Moves.shifted_eq`
-/
import GraphScript.Proofs.Text.Splitting

namespace GraphScript

open Text

/-! ## Shifted texts -/

/-- What is put before a line. -/
def margin (bracesStay : Bool) (indentation : String) (line : List Char) : List Char :=
  if bracesStay = true ∧ line.head? = some '\x7d' then [] else indentation.toList

/-- The text with the indentation before each of its lines, except before those that begin with a brace where braces
    stay. -/
def shifted (bracesStay : Bool) (indentation text : String) : String :=
  joined "\n" ((physicalLines text).map fun line => String.ofList (margin bracesStay indentation line ++ line))

/-- The text with the indentation behind each of its line breaks. -/
def broken (bracesStay : Bool) (indentation : String) : List Char → List Char
  | [] => []
  | c :: cs => c :: ((if c = '\n' then margin bracesStay indentation cs else []) ++ broken bracesStay indentation cs)

variable {stays : Bool} {ind : String}

theorem margin_break (cs : List Char) : margin stays ind ('\n' :: cs) = margin stays ind [] := by simp [margin]

/-- The first line of a text begins as the text does. -/
theorem margin_of_splitOn {cs word : List Char} {words : List (List Char)} (h : cs.splitOn '\n' = word :: words) :
    margin stays ind word = margin stays ind cs := by
  cases cs with
  | nil =>
    obtain ⟨rfl, -⟩ := List.cons.inj h
    rfl
  | cons c cs =>
    obtain ⟨first, rest, -, hcons⟩ := splitOn_cons '\n' c cs
    rw [hcons] at h
    split at h
    · rename_i hc
      obtain ⟨rfl, -⟩ := List.cons.inj h
      rw [hc, margin_break]
    · obtain ⟨rfl, -⟩ := List.cons.inj h
      rfl

/-- A text without line breaks has none that the indentation is put behind. -/
theorem broken_append {w : List Char} (hw : '\n' ∉ w) (r : List Char) :
    broken stays ind (w ++ r) = w ++ broken stays ind r := by
  induction w with
  | nil => rfl
  | cons c w ih =>
    obtain ⟨hc, hw⟩ := not_or.mp (mt List.mem_cons.mpr hw)
    rw [List.cons_append, broken, if_neg (Ne.symm hc), List.nil_append, ih hw, List.cons_append]

theorem toList_shifted (text : String) :
    (shifted stays ind text).toList = margin stays ind text.toList ++ broken stays ind text.toList := by
  unfold shifted physicalLines
  induction text.toList with
  | nil =>
    simp only [List.splitOn_nil, List.map_cons, List.map_nil, joined, String.toList_ofList]
    rfl
  | cons c cs ih =>
    obtain ⟨word, words, h, hcons⟩ := splitOn_cons '\n' c cs
    have hmargin : margin stays ind (c :: word) = margin stays ind (c :: cs) := rfl
    rw [h, List.map_cons] at ih
    rw [hcons, broken]
    split
    · rename_i hc
      rw [List.map_cons, List.map_cons, joined, String.toList_append, String.toList_append, ih, String.toList_ofList,
        List.append_nil, hc, margin_break, List.append_assoc]
      · rfl
      · exact List.cons_ne_nil _ _
    · rw [toList_joined_cons, String.toList_ofList, margin_of_splitOn h, List.append_assoc] at ih
      rw [List.map_cons, toList_joined_cons, String.toList_ofList, hmargin, List.nil_append, List.append_assoc,
        List.cons_append, List.append_cancel_left ih]

/-! ## Parts of a text -/

/-- With the indentation behind its line breaks the one text is the other, whatever follows it. -/
def Moves (stays : Bool) (ind t u : String) : Prop :=
  ∀ r, broken stays ind (t.toList ++ r) = u.toList ++ broken stays ind r

theorem moves_of_unbroken {t : String} (h : '\n' ∉ t.toList) : Moves stays ind t t := broken_append h

theorem Moves.append {s s' t t' : String} (hs : Moves stays ind s s') (ht : Moves stays ind t t') :
    Moves stays ind (s ++ t) (s' ++ t') := by
  intro r
  rw [String.toList_append, String.toList_append, List.append_assoc, hs, ht, List.append_assoc]

theorem moves_join {ts us : List String} (h : List.Forall₂ (Moves stays ind) ts us) :
    Moves stays ind (String.join ts) (String.join us) := by
  induction h with
  | nil => exact moves_of_unbroken (by simp)
  | cons h _ ih =>
    rw [String.join_cons, String.join_cons]
    exact h.append ih

theorem moves_joined {separator : String} (hsep : '\n' ∉ separator.toList) {ts us : List String}
    (h : List.Forall₂ (Moves stays ind) ts us) : Moves stays ind (joined separator ts) (joined separator us) := by
  induction h with
  | nil => exact moves_of_unbroken (by simp [joined])
  | cons ht hts ih =>
    cases hts with
    | nil => exact ht
    | cons _ _ => exact (ht.append (moves_of_unbroken hsep)).append ih

theorem Moves.toList_eq {t u : String} (h : Moves stays ind t u) : u.toList = broken stays ind t.toList := by
  simpa [broken] using (h []).symm

/-- Nothing moves to nothing, and nothing else does. -/
theorem Moves.eq_empty_iff {t u : String} (h : Moves stays ind t u) : u = "" ↔ t = "" := by
  rw [← String.toList_eq_nil_iff, ← String.toList_eq_nil_iff, h.toList_eq]
  cases t.toList <;> simp [broken]

/-- A text that no indentation changes has no line break. -/
theorem unbroken_of_moves {t : String} (h : Moves false " " t t) : '\n' ∉ t.toList := by
  have hlength : ∀ cs, cs.length ≤ (broken false " " cs).length := by
    intro cs
    induction cs with
    | nil => exact Nat.le_refl _
    | cons c cs ih =>
      rw [broken, List.length_cons, List.length_cons, List.length_append]
      omega
  have heq := h.toList_eq
  generalize t.toList = cs at heq
  induction cs with
  | nil => exact List.not_mem_nil
  | cons c cs ih =>
    rw [broken, List.cons.injEq] at heq
    by_cases hc : c = '\n'
    · -- The blank behind the line break makes the rest too long.
      have hcs := hlength cs
      have := congrArg List.length heq.2
      simp [hc, margin] at this
      omega
    · rw [if_neg hc, List.nil_append] at heq
      exact fun hmem => (List.mem_cons.mp hmem).elim (fun h => hc h.symm) (ih heq.2)

/-! ## Lines -/

/-- The one line moves to the other where it stands behind a line break. -/
def MovesDown (stays : Bool) (ind t u : String) : Prop := Moves stays ind ("\n" ++ t) ("\n" ++ u)

/-- A line before which the indentation is put, however it goes on. -/
theorem Moves.behind_break {t u : String} (h : Moves stays ind t u)
    (ht : ∀ r, margin stays ind (t.toList ++ r) = ind.toList) : MovesDown stays ind t (ind ++ u) := by
  intro r
  have hbreak : ("\n" ++ t).toList ++ r = '\n' :: (t.toList ++ r) := by simp
  rw [hbreak, broken, if_pos rfl, ht, h]
  simp

/-- A brace behind a line break stays where it is. -/
theorem brace_stays : MovesDown true ind "\x7d" "\x7d" := by
  intro r
  have hbreak : ("\n" ++ "\x7d").toList ++ r = '\n' :: '\x7d' :: r := by simp
  rw [hbreak]
  simp [broken, margin]

theorem Moves.shifted_eq {t u : String} (h : Moves stays ind t u) (ht : margin stays ind t.toList = ind.toList) :
    ind ++ u = shifted stays ind t := by
  rw [← String.toList_inj, toList_shifted, String.toList_append, ht, h.toList_eq]

end GraphScript
