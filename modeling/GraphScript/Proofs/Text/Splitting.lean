/-
  GraphScript.Proofs.Text.Splitting — texts between marks.

  Splitting a text at a mark undoes joining its parts by the mark, and the other way around. So a
  list of texts without the mark is known from what they are joined to, and to leave out some of
  them leaves out characters and changes none.

  - `splitOn_joined`, `joined_splitOn`
  - `joined_sublist`
-/
import GraphScript.Disk.PathText
import GraphScript.Proofs.Script.Separation
import Mathlib.Data.List.Flatten

namespace GraphScript.Text

/-! ## The parts of a text -/

section

variable {mark c : Char} {cs word : List Char}

/-- What becomes of the parts of a text where it goes on in front. -/
theorem splitOn_cons (mark c : Char) (cs : List Char) : ∃ word words, cs.splitOn mark = word :: words ∧
    (c :: cs).splitOn mark = if c = mark then [] :: word :: words else (c :: word) :: words := by
  obtain ⟨word, words, h⟩ := List.exists_cons_of_ne_nil (List.splitOn_ne_nil mark cs)
  refine ⟨word, words, h, ?_⟩
  rw [List.splitOn_cons_eq_if_modifyHead, h]
  simp

theorem not_mem_of_mem_splitOn (h : word ∈ cs.splitOn mark) : mark ∉ word := by
  induction cs generalizing word with
  | nil =>
    rw [List.mem_singleton.mp h]
    exact List.not_mem_nil
  | cons c cs ih =>
    obtain ⟨first, rest, hs, hcons⟩ := splitOn_cons mark c cs
    rw [hs] at ih
    rw [hcons] at h
    split at h
    · rcases List.mem_cons.mp h with rfl | h
      · exact List.not_mem_nil
      · exact ih h
    · rename_i hc
      rcases List.mem_cons.mp h with rfl | h
      · exact List.not_mem_cons_of_ne_of_not_mem (Ne.symm hc) (ih (List.mem_cons_self ..))
      · exact ih (List.mem_cons_of_mem _ h)

/-- The characters of the parts are those of the text, the marks apart. -/
theorem exists_mem_splitOn (hc : c ≠ mark) : (∃ word ∈ cs.splitOn mark, c ∈ word) ↔ c ∈ cs := by
  induction cs with
  | nil => simp
  | cons d cs ih =>
    obtain ⟨first, rest, hs, hcons⟩ := splitOn_cons mark d cs
    rw [hs, List.exists_mem_cons_iff] at ih
    rw [hcons, List.mem_cons, ← ih]
    split
    · rename_i hd
      simp [hd, hc]
    · simp [or_assoc]

end

/-! ## Joined again -/

section

variable {mark : Char} {separator : String}

theorem toList_joined (separator : String) (ts : List String) :
    (joined separator ts).toList = separator.toList.intercalate (ts.map String.toList) := by
  induction ts with
  | nil => rfl
  | cons t ts ih =>
    cases ts with
    | nil => simp [joined]
    | cons u ts =>
      rw [joined, String.toList_append, String.toList_append, ih]
      · simp
      · exact List.cons_ne_nil _ _

theorem splitOn_joined (hs : separator.toList = [mark]) {ts : List String} (h : ts ≠ []) :
    (joined separator ts).toList.splitOn mark = ts.flatMap fun t => t.toList.splitOn mark := by
  induction ts with
  | nil => exact absurd rfl h
  | cons t ts ih =>
    cases ts with
    | nil => simp [joined]
    | cons u ts =>
      rw [List.flatMap_cons, ← ih (List.cons_ne_nil _ _), joined, String.toList_append, String.toList_append, hs,
        List.append_assoc]
      · exact List.splitOn_append_cons_self _ _
      · exact List.cons_ne_nil _ _

theorem joined_splitOn (hs : separator.toList = [mark]) (cs : List Char) :
    (joined separator ((cs.splitOn mark).map String.ofList)).toList = cs := by
  have hwords : ((cs.splitOn mark).map String.ofList).map String.toList = cs.splitOn mark := by simp
  rw [toList_joined, hs, hwords, List.intercalate_splitOn]

theorem toList_joined_sublist_cons (separator t : String) (ts : List String) :
    (joined separator ts).toList.Sublist (joined separator (t :: ts)).toList := by
  cases ts with
  | nil => exact List.nil_sublist _
  | cons u ts =>
    rw [show joined separator (t :: u :: ts) = t ++ separator ++ joined separator (u :: ts) from rfl,
      String.toList_append]
    exact List.sublist_append_right _ _

/-- Where texts are left out, characters are left out. -/
theorem joined_sublist (separator : String) {ts us : List String} (h : ts.Sublist us) :
    (joined separator ts).toList.Sublist (joined separator us).toList := by
  induction h with
  | slnil => exact List.Sublist.refl _
  | cons u _ ih => exact ih.trans (toList_joined_sublist_cons separator u _)
  | cons_cons u h _ =>
    rw [toList_joined_cons, toList_joined_cons, toList_join_map, toList_join_map]
    exact (h.flatMap _).append_left _

end

end GraphScript.Text

namespace GraphScript

/-! ## Lines -/

/-- The lines of a text, whatever they are part of. -/
def physicalLines (s : String) : List (List Char) := s.toList.splitOn '\n'

/-- Joined by line breaks, the lines of several texts are those of each in turn. -/
theorem physicalLines_joined {ts : List String} (h : ts ≠ []) :
    physicalLines (Text.joined "\n" ts) = ts.flatMap physicalLines := Text.splitOn_joined (by decide) h

end GraphScript
