/-
  GraphScript.Proofs.Script.Scanning — a literal is read back from the front of any text.

  A reader of literals knows nothing of what was written. It takes an opening mark, reads two marks
  in a row as one, and stops at the first mark that stands alone. Marks of the payload and the mark
  that closes the literal can make up one long run, so the reader is proved for what is left of a
  payload at any place (`scanRest_doubled`).

  Which texts are literals is seen without reading them: between the two outer marks, marks come in
  runs of even length (`IsLiteral`). A run is taken off two marks at a time (`evenRuns_marks`).

  - `literals_scan_back`
-/
import GraphScript.Proofs.Script.Literals
import Mathlib.Algebra.Group.Nat.Even

namespace GraphScript

namespace Text

variable {mark c : Char} {cs s r : List Char}

/-! ## Reading a literal -/

/-- The payload up to the mark that closes the literal, and what is left behind that mark. -/
def scanRest (mark : Char) : List Char → Option (List Char × List Char)
  | [] => none
  | [c] => if c = mark then some ([], []) else none
  | c :: d :: rest =>
    if c ≠ mark then (scanRest mark (d :: rest)).map fun (payload, left) => (c :: payload, left)
    else if d = mark then (scanRest mark rest).map fun (payload, left) => (mark :: payload, left)
    else some ([], d :: rest)

/-- The payload of the literal at the front of a text, and what is left of the text. -/
def scan (mark : Char) (text : String) : Option (String × String) :=
  match text.toList with
  | [] => none
  | c :: rest =>
    if c = mark then (scanRest mark rest).map fun (payload, left) => (String.ofList payload, String.ofList left)
    else none

theorem scanRest_close (hr : Opens (· != mark) r) : scanRest mark (mark :: r) = some ([], r) := by
  cases r with
  | nil => rw [scanRest, if_pos rfl]
  | cons d r =>
    have hd : d ≠ mark := by simpa using hr
    rw [scanRest, if_neg (by simp), if_neg hd]

theorem scanRest_other (hc : c ≠ mark) (hcs : cs ≠ []) :
    scanRest mark (c :: cs) = (scanRest mark cs).map fun (payload, left) => (c :: payload, left) := by
  cases cs with
  | nil => exact absurd rfl hcs
  | cons d cs => rw [scanRest, if_pos hc]

theorem scanRest_marks (mark : Char) (cs : List Char) :
    scanRest mark (mark :: mark :: cs) = (scanRest mark cs).map fun (payload, left) => (mark :: payload, left) := by
  rw [scanRest, if_neg (by simp), if_pos rfl]

/-- What is left of a payload is read up to its end. -/
theorem scanRest_doubled (hr : Opens (· != mark) r) (s : List Char) :
    scanRest mark (doubled mark s ++ mark :: r) = some (s, r) := by
  induction s with
  | nil => exact scanRest_close hr
  | cons c s ih =>
    by_cases hc : c = mark
    · rw [doubled, if_pos hc, List.cons_append, List.cons_append, scanRest_marks, ih, hc]
      rfl
    · rw [doubled, if_neg hc, List.cons_append, scanRest_other hc (by simp), ih]
      rfl

theorem scan_quoted {r : String} (hr : Opens (· != mark) r.toList) (s : String) :
    scan mark (quoted mark s ++ r) = some (s, r) := by
  have htext : (quoted mark s ++ r).toList = mark :: (doubled mark s.toList ++ mark :: r.toList) := by
    rw [String.toList_append, toList_quoted]
    simp
  rw [scan, htext]
  dsimp only
  rw [if_pos rfl, scanRest_doubled hr, Option.map_some, String.ofList_toList, String.ofList_toList]

/-! ## Runs of marks -/

/-- Somewhere in the text stand `n` marks in a row, and no more of them. -/
def IsRun (mark : Char) (cs : List Char) (n : Nat) : Prop :=
  ∃ before after, cs = before ++ List.replicate n mark ++ after ∧ before.getLast? ≠ some mark ∧ after.head? ≠ some mark

def EvenRuns (mark : Char) (cs : List Char) : Prop := ∀ n, IsRun mark cs n → Even n

theorem evenRuns_nil (mark : Char) : EvenRuns mark [] := by
  intro n hrun
  obtain ⟨before, after, h, -, -⟩ := hrun
  have hlength := congrArg List.length h
  simp only [List.length_nil, List.length_append, List.length_replicate] at hlength
  obtain rfl : n = 0 := by omega
  exact Even.zero

theorem evenRuns_other (hc : c ≠ mark) : EvenRuns mark (c :: cs) ↔ EvenRuns mark cs := by
  constructor
  · intro h n hrun
    obtain ⟨before, after, rfl, hb, ha⟩ := hrun
    refine h n ⟨c :: before, after, rfl, ?_, ha⟩
    cases before with
    | nil => simpa using hc
    | cons b before => simpa using hb
  · intro h n hrun
    obtain ⟨before, after, he, hb, ha⟩ := hrun
    cases before with
    | nil =>
      cases n with
      | zero => exact Even.zero
      | succ n => exact absurd (List.head_eq_of_cons_eq he) hc
    | cons b before =>
      refine h n ⟨before, after, List.tail_eq_of_cons_eq he, ?_, ha⟩
      cases before with
      | nil => simp
      | cons b' before => simpa using hb

/-- Two marks in front make the first run longer by two, or are a run of their own. -/
theorem evenRuns_marks : EvenRuns mark (mark :: mark :: cs) ↔ EvenRuns mark cs := by
  constructor
  · intro h n hrun
    obtain ⟨before, after, rfl, hb, ha⟩ := hrun
    cases before with
    | nil =>
      have htwo : Even (n + 2) := h (n + 2) ⟨[], after, rfl, by simp, ha⟩
      exact (Nat.even_add.mp htwo).mpr (by decide)
    | cons b before => exact h n ⟨mark :: mark :: b :: before, after, rfl, by simpa using hb, ha⟩
  · intro h n hrun
    obtain ⟨before, after, he, hb, ha⟩ := hrun
    match before, he, hb with
    | [], he, _ =>
      match n, he with
      | 0, _ => exact Even.zero
      | 1, he =>
        -- The second mark stands behind the run, which is none then.
        have hafter : mark :: cs = after := List.tail_eq_of_cons_eq he
        rw [← hafter] at ha
        exact absurd rfl ha
      | n + 2, he =>
        have hn := h n ⟨[], after, List.tail_eq_of_cons_eq (List.tail_eq_of_cons_eq he), by simp, ha⟩
        exact hn.add (by decide)
    | [b], he, hb => exact absurd (congrArg some (List.head_eq_of_cons_eq he).symm) hb
    | [b, b'], he, hb =>
      have hb' := List.head_eq_of_cons_eq (List.tail_eq_of_cons_eq he)
      exact absurd (congrArg some hb'.symm) hb
    | b :: b' :: d :: before, he, hb =>
      exact h n ⟨d :: before, after, List.tail_eq_of_cons_eq (List.tail_eq_of_cons_eq he), by simpa using hb, ha⟩

theorem not_evenRuns_single (h : cs.head? ≠ some mark) : ¬ EvenRuns mark (mark :: cs) := fun he =>
  absurd (he 1 ⟨[], cs, rfl, by simp, h⟩) Nat.not_even_one

theorem evenRuns_doubled (mark : Char) (s : List Char) : EvenRuns mark (doubled mark s) := by
  induction s with
  | nil => exact evenRuns_nil mark
  | cons c s ih =>
    by_cases hc : c = mark
    · rw [doubled, if_pos hc]
      exact evenRuns_marks.mpr ih
    · rw [doubled, if_neg hc]
      exact (evenRuns_other hc).mpr ih

/-- Marks in runs of even length are the doubled marks of a payload. -/
theorem exists_doubled (cs : List Char) (h : EvenRuns mark cs) : ∃ s, doubled mark s = cs := by
  match cs, h with
  | [], _ => exact ⟨[], rfl⟩
  | [c], h =>
    by_cases hc : c = mark
    · exact absurd (hc ▸ h) (not_evenRuns_single (by simp))
    · exact ⟨[c], by rw [doubled, if_neg hc, doubled]⟩
  | c :: d :: rest, h =>
    by_cases hc : c = mark
    · rw [hc] at h ⊢
      by_cases hd : d = mark
      · rw [hd] at h ⊢
        obtain ⟨s, hs⟩ := exists_doubled rest (evenRuns_marks.mp h)
        exact ⟨mark :: s, by rw [doubled, if_pos rfl, hs]⟩
      · exact absurd h (not_evenRuns_single (by simpa using hd))
    · obtain ⟨s, hs⟩ := exists_doubled (d :: rest) ((evenRuns_other hc).mp h)
      exact ⟨c :: s, by rw [doubled, if_neg hc, hs]⟩

/-! ## Literals -/

/-- A text that begins and ends with a mark, not the same one, and has no run of marks of odd length between them. -/
structure IsLiteral (mark : Char) (text : String) : Prop where
  opens : text.toList.head? = some mark
  closes : text.toList.getLast? = some mark
  long : 2 ≤ text.length
  even : ∀ n, IsRun mark text.toList.tail.dropLast n → Even n

theorem isLiteral_quoted (mark : Char) (s : String) : IsLiteral mark (quoted mark s) := by
  refine ⟨?_, ?_, ?_, ?_⟩
  · rw [toList_quoted, List.cons_append, List.head?_cons]
  · rw [toList_quoted, List.getLast?_concat]
  · rw [← String.length_toList, toList_quoted]
    simp
  · rw [toList_quoted, List.cons_append, List.tail_cons, List.dropLast_concat]
    exact evenRuns_doubled mark s.toList

theorem exists_quoted {text : String} (h : IsLiteral mark text) : ∃ s, quoted mark s = text := by
  have hlong := h.long
  rw [← String.length_toList] at hlong
  have hopens := List.eq_cons_of_mem_head? h.opens
  have htail : text.toList.tail ≠ [] := by
    intro hnil
    rw [hopens, hnil] at hlong
    simp at hlong
  have hlast : text.toList.tail.getLast? = some mark := by
    rw [← h.closes, hopens, List.tail_cons, List.getLast?_cons]
    cases hl : text.toList.tail.getLast? with
    | none => exact absurd (List.getLast?_eq_none_iff.mp hl) htail
    | some c => rfl
  obtain ⟨s, hs⟩ := exists_doubled _ h.even
  refine ⟨String.ofList s, String.toList_inj.mp ?_⟩
  rw [toList_quoted, String.toList_ofList, hs, List.cons_append, hopens, List.tail_cons,
    List.dropLast_append_getLast? mark hlast]

end Text

/-- How payloads are written as literals between marks: the reader takes each of them off the front of a text and
    leaves what follows, what is written are the literals and no other texts, and a literal is what is written of its
    payload. -/
structure SelfDelimiting (mark : Char) (write : String → String) : Prop where
  scanned (s r : String) : Opens (· != mark) r.toList → Text.scan mark (write s ++ r) = some (s, r)
  literals (text : String) : (∃ s, write s = text) ↔ Text.IsLiteral mark text
  rewritten (text : String) : Text.IsLiteral mark text → ∃ s, Text.scan mark text = some (s, "") ∧ write s = text

theorem selfDelimiting_quoted (mark : Char) : SelfDelimiting mark (Text.quoted mark) := by
  refine ⟨fun s r hr => Text.scan_quoted hr s, fun text => ⟨?_, Text.exists_quoted⟩, fun text h => ?_⟩
  · intro h
    obtain ⟨s, rfl⟩ := h
    exact Text.isLiteral_quoted mark s
  · obtain ⟨s, rfl⟩ := Text.exists_quoted h
    have hs := Text.scan_quoted (r := "") (opens_nil (· != mark)) s
    rw [String.append_empty] at hs
    exact ⟨s, hs, rfl⟩

/-- Strings between double quotes and expressions between backticks are read back, whatever they hold and whatever
    follows but one more mark; and every text that is a literal is written of what is read from it. -/
theorem literals_scan_back : SelfDelimiting '"' stringScript ∧ SelfDelimiting '\x60' (fun s => Latex.script ⟨s⟩) :=
  ⟨selfDelimiting_quoted '"', selfDelimiting_quoted '\x60'⟩

example : Text.scan '"' (stringScript "\"a\"" ++ ", \"b\"") = some ("\"a\"", ", \"b\"") := by decide

end GraphScript
