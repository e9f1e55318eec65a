/-
  GraphScript.Proofs.Json.Legible — what is written of a value is plain ASCII in lines.

  No character of it is a control character but the line feed, and none lies beyond ASCII. So a file
  that holds it is read as it was written, whatever is done to line ends.

  - `written_legible`
  - `Text.read_of_legible`
-/
import GraphScript.Disk.Basic
import GraphScript.Proofs.Json.RoundTrip

namespace GraphScript

/-! ## Characters -/

/-- A line feed, or a character of ASCII that shows. -/
def Text.isLegible (c : Char) : Bool := c = '\n' || 0x20 ≤ c.toNat && c.toNat < 0x7f

def Text.Legible (cs : List Char) : Prop := ∀ c ∈ cs, isLegible c = true

namespace Text

instance (cs : List Char) : Decidable (Legible cs) := decidable_of_iff (cs.all isLegible = true) List.all_eq_true

@[simp] theorem legible_append {cs ds : List Char} : Legible (cs ++ ds) ↔ Legible cs ∧ Legible ds :=
  List.forall_mem_append

@[simp] theorem legible_cons {c : Char} {cs : List Char} : Legible (c :: cs) ↔ isLegible c = true ∧ Legible cs :=
  List.forall_mem_cons

@[simp] theorem legible_nil : Legible [] := nofun

theorem isLegible_of_isNumberChar {c : Char} (h : isNumberChar c = true) : isLegible c = true := by
  delta isNumberChar Char.isAlphanum Char.isAlpha Char.isUpper Char.isLower Char.isDigit at h
  simp only [Bool.or_eq_true, Bool.and_eq_true, decide_eq_true_eq, UInt32.le_iff_toNat_le, ge_iff_le] at h
  simp only [isLegible, Bool.or_eq_true, Bool.and_eq_true, decide_eq_true_eq]
  change (((((65 ≤ c.toNat ∧ c.toNat ≤ 90) ∨ 97 ≤ c.toNat ∧ c.toNat ≤ 122) ∨ 48 ≤ c.toNat ∧ c.toNat ≤ 57) ∨ c = '+')
    ∨ c = '-') ∨ c = '.' at h
  rcases h with ((((h | h) | h) | rfl) | rfl) | rfl
  · exact .inr (by omega)
  · exact .inr (by omega)
  · exact .inr (by omega)
  all_goals decide

theorem legible_of_numeric {s : String} (h : Numeric s) : Legible s.toList := fun c hc =>
  isLegible_of_isNumberChar (h c hc)

/-! ## Line ends -/

theorem lineFeeds_of_not_mem {cs : List Char} (h : '\r' ∉ cs) : lineFeeds cs = cs := by
  induction cs with
  | nil => rfl
  | cons c cs ih =>
    obtain ⟨hc, hcs⟩ := not_or.mp (mt List.mem_cons.mpr h)
    rw [lineFeeds, ih hcs]
    · exact fun _ he _ => hc he.symm
    · exact fun he => hc he.symm

theorem read_of_legible {s : String} (h : Legible s.toList) : Text.read s = s := by
  have hreturn : '\r' ∉ s.toList := fun hmem => absurd (h _ hmem) (by decide)
  rw [Text.read, lineFeeds_of_not_mem hreturn, String.ofList_toList]

end Text

namespace Json

open Text

/-! ## Strings -/

theorem toDigits_legible (n : Nat) : Legible (Nat.toDigits 16 n) := by
  have hdigit : ∀ n < 16, isLegible (Nat.digitChar n) = true := by decide
  induction n using Nat.strongRecOn with
  | ind n ih =>
    by_cases hn : n < 16
    · rw [Nat.toDigits_of_lt_base hn]
      exact legible_cons.mpr ⟨hdigit n hn, legible_nil⟩
    · rw [Nat.toDigits_of_base_le (by decide) (Nat.not_lt.mp hn)]
      have hlast := hdigit (n % 16) (Nat.mod_lt n (by decide))
      exact legible_append.mpr ⟨ih (n / 16) (by omega), legible_cons.mpr ⟨hlast, legible_nil⟩⟩

theorem hex_legible (width u : Nat) : Legible (Text.hex width u) := by
  refine legible_append.mpr ⟨fun c hc => ?_, toDigits_legible u⟩
  rw [List.eq_of_mem_replicate hc]
  decide

theorem escapedUnit_legible (u : Nat) : Legible (escapedUnit u) :=
  legible_cons.mpr ⟨by decide, legible_cons.mpr ⟨by decide, hex_legible 4 u⟩⟩

theorem escapedChar_legible (c : Char) : Legible (escapedChar c) := by
  unfold escapedChar
  iterate 7
    split
    · decide
  split
  · rename_i hc
    simpa [isLegible] using .inr hc
  split
  · exact escapedUnit_legible _
  · exact legible_append.mpr ⟨escapedUnit_legible _, escapedUnit_legible _⟩

theorem writtenString_legible (s : String) : Legible (writtenString s) := by
  have hchars : Legible (s.toList.flatMap escapedChar) := by
    intro c hc
    obtain ⟨d, -, hd⟩ := List.mem_flatMap.mp hc
    exact escapedChar_legible d c hd
  exact legible_append.mpr ⟨legible_cons.mpr ⟨by decide, hchars⟩, by decide⟩

/-! ## Values -/

section

variable {indent : Option String} (hi : ∀ unit ∈ indent, Legible unit.toList)

include hi

theorem lineBreak_legible (depth : Nat) : Legible (lineBreak indent depth) := by
  cases indent with
  | none => exact legible_nil
  | some unit =>
    refine legible_cons.mpr ⟨by decide, fun c hc => ?_⟩
    obtain ⟨cs, hcs, hc⟩ := List.mem_flatten.mp hc
    exact hi unit rfl c (List.eq_of_mem_replicate hcs ▸ hc)

theorem separator_legible (depth : Nat) : Legible (separator indent depth) := by
  cases indent with
  | none =>
    rw [separator]
    decide
  | some unit => exact legible_cons.mpr ⟨by decide, lineBreak_legible hi depth⟩

mutual

theorem written_legible (depth : Nat) (j : Json) : Legible (written indent depth j) := by
  cases j with
  | null => rw [written]; decide
  | bool b => cases b <;> rw [written] <;> decide
  | int n => rw [written]; exact legible_of_numeric (numeric_int n)
  | float x => rw [written]; exact legible_of_numeric (Layout.numeric_text (by decide) x)
  | str s => rw [written]; exact writtenString_legible s
  | arr members =>
    cases members with
    | nil => rw [written]; decide
    | cons x rest =>
      have hopen := lineBreak_legible hi (depth + 1)
      have hclose := lineBreak_legible hi depth
      have hx := written_legible (depth + 1) x
      have hrest := writtenMembers_legible (depth + 1) rest
      simp [written, hopen, hclose, hx, hrest, isLegible]
  | obj fields =>
    cases fields with
    | nil => rw [written]; decide
    | cons f rest =>
      obtain ⟨k, x⟩ := f
      have hopen := lineBreak_legible hi (depth + 1)
      have hclose := lineBreak_legible hi depth
      have hx := written_legible (depth + 1) x
      have hrest := writtenFields_legible (depth + 1) rest
      simp [written, hopen, hclose, hx, hrest, writtenString_legible, isLegible]

theorem writtenMembers_legible (depth : Nat) (xs : List Json) : Legible (writtenMembers indent depth xs) := by
  cases xs with
  | nil => rw [writtenMembers]; decide
  | cons x rest =>
    have hx := written_legible depth x
    have hrest := writtenMembers_legible depth rest
    simp [writtenMembers, separator_legible hi, hx, hrest]

theorem writtenFields_legible (depth : Nat) (fs : List (String × Json)) : Legible (writtenFields indent depth fs) := by
  cases fs with
  | nil => rw [writtenFields]; decide
  | cons f rest =>
    obtain ⟨k, x⟩ := f
    have hx := written_legible depth x
    have hrest := writtenFields_legible depth rest
    simp [writtenFields, separator_legible hi, writtenString_legible, hx, hrest, isLegible]

end

end

/-- Whatever the value holds, its text is legible at every width of the indent. -/
theorem write_legible (indent : Option Nat) (j : Json) : Legible (j.write (indent.map spaces)).toList := by
  rw [write, String.toList_ofList]
  refine written_legible ?_ 0 j
  intro unit hu
  obtain ⟨width, -, rfl⟩ := Option.map_eq_some_iff.mp hu
  rw [spaces, String.toList_ofList]
  intro c hc
  rw [List.eq_of_mem_replicate hc]
  decide

end Json

end GraphScript
