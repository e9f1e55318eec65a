/-
  GraphScript.Proofs.Json.Strings — a string that is written is read back.

  Each character is written as plain text, as an escape, as one code unit or as two, and read as its
  code units again (`units`). No unit of a character is half of a pair with a unit of its neighbour.

  - `string_written`
-/
import GraphScript.Json.Reader
import GraphScript.Json.Writer
import GraphScript.Proofs.Faults

namespace GraphScript

/-! ## Hexadecimal digits -/

theorem Text.hex_one {u : Nat} (h : u < 16) : hex 1 u = [Nat.digitChar u] := by
  simp [hex, Nat.toDigits_of_lt_base h]

theorem Text.hex_succ (width u : Nat) : hex (width + 2) u = hex (width + 1) (u / 16) ++ [Nat.digitChar (u % 16)] := by
  by_cases h : u < 16
  · rw [Nat.div_eq_of_lt h, Nat.mod_eq_of_lt h]
    simp [hex, Nat.toDigits_of_lt_base h, Nat.toDigits_zero, List.replicate_succ']
  · simp [hex, Nat.toDigits_of_base_le (by decide) (Nat.not_lt.mp h)]

namespace Json

theorem hexDigit?_digitChar : ∀ n < 16, hexDigit? (Nat.digitChar n) = some n := by decide

/-- The four digits of a code unit, and their value. -/
theorem hex_unit {u : Nat} (h : u < 0x10000) :
    ∃ a b c d, Text.hex 4 u = [a, b, c, d] ∧ unit? a b c d = some u := by
  have hhex : Text.hex 4 u = [Nat.digitChar (u / 16 / 16 / 16), Nat.digitChar (u / 16 / 16 % 16),
      Nat.digitChar (u / 16 % 16), Nat.digitChar (u % 16)] := by
    rw [Text.hex_succ, Text.hex_succ, Text.hex_succ, Text.hex_one (by omega)]
    rfl
  refine ⟨_, _, _, _, hhex, ?_⟩
  rw [unit?, hexDigit?_digitChar _ (by omega), hexDigit?_digitChar _ (by omega), hexDigit?_digitChar _ (by omega),
    hexDigit?_digitChar _ (by omega)]
  refine congrArg some ?_
  omega

/-! ## Characters -/

/-- The code units of a character. -/
def units (c : Char) : List Nat :=
  if c.toNat < 0x10000 then [c.toNat]
  else [0xd800 + (c.toNat - 0x10000) / 0x400, 0xdc00 + (c.toNat - 0x10000) % 0x400]

theorem toNat_valid (c : Char) : c.toNat < 0xd800 ∨ 0xdfff < c.toNat ∧ c.toNat < 0x110000 := c.valid

/-- Behind what has been read so far. -/
def behind (us : List Nat) (found : Except Stop (List Nat × List Char)) : Except Stop (List Nat × List Char) :=
  found.map fun (more, left) => (us ++ more, left)

theorem behind_behind (us vs : List Nat) (found : Except Stop (List Nat × List Char)) :
    behind us (behind vs found) = behind (us ++ vs) found := by
  cases found <;> simp [behind, Except.map]

section

variable (opening : List Char) {next : Char} {after rest : List Char}

theorem codes_unit {u : Nat} (h : u < 0x10000) :
    codes opening (escapedUnit u ++ next :: after) = behind [u] (codes opening (next :: after)) := by
  obtain ⟨a, b, c, d, hhex, hu⟩ := hex_unit h
  rw [escapedUnit, hhex]
  show codes opening ('\\' :: 'u' :: a :: b :: c :: d :: next :: after) = _
  rw [codes, hu]
  rfl

theorem codes_escape {c d : Char} (hc : escaped? c = some d) (hu : c ≠ 'u') :
    codes opening ('\\' :: c :: rest) = behind [d.toNat] (codes opening rest) := by
  rw [codes, hc]
  · rfl
  · exact fun h => hu h

theorem codes_plain {c : Char} (hc : 0x20 ≤ c.toNat) (hq : c ≠ '"') (hb : c ≠ '\\') :
    codes opening (c :: rest) = behind [c.toNat] (codes opening rest) := by
  rw [codes, if_neg (Nat.not_lt.mpr hc)]
  · rfl
  · exact hq
  · exact fun h _ => hb h
  · exact fun _ h _ => hb h
  · exact fun _ _ h _ => hb h

theorem codes_escapedChar (c : Char) :
    codes opening (escapedChar c ++ next :: after) = behind (units c) (codes opening (next :: after)) := by
  have hescape : ∀ e d : Char, escaped? e = some d → e ≠ 'u' → d.toNat < 0x10000 →
      codes opening (['\\', e] ++ next :: after) = behind (units d) (codes opening (next :: after)) := by
    intro e d he hu hd
    rw [units, if_pos hd]
    exact codes_escape opening he hu
  unfold escapedChar
  iterate 7
    split
    · subst_vars
      exact hescape _ _ (by decide) (by decide) (by decide)
  split
  · rename_i hq hb _ _ _ _ _ hc
    rw [units, if_pos (by omega)]
    exact codes_plain opening hc.1 hq hb
  split
  · rename_i hc
    rw [units, if_pos hc]
    exact codes_unit opening hc
  · rename_i hc
    have hlow : 0xdc00 + (c.toNat - 0x10000) % 0x400 < 0x10000 := by omega
    have hhigh : 0xd800 + (c.toNat - 0x10000) / 0x400 < 0x10000 := by
      have := toNat_valid c
      omega
    rw [units, if_neg hc, List.append_assoc]
    -- the second unit is what stands behind the first
    refine (codes_unit opening hhigh).trans ?_
    exact (congrArg (behind _) (codes_unit opening hlow)).trans (behind_behind _ _ _)

end

theorem charsOfCodes_units (c : Char) (us : List Nat) : charsOfCodes (units c ++ us) = c :: charsOfCodes us := by
  have hvalid := toNat_valid c
  unfold units
  split
  · have hhigh : isHighSurrogate c.toNat = false := by
      simp [isHighSurrogate]
      omega
    have hlow : isLowSurrogate c.toNat = false := by
      simp [isLowSurrogate]
      omega
    have hc : charOfCode c.toNat = c := by simp [charOfCode, hhigh, hlow]
    cases us with
    | nil => simp [charsOfCodes, hc]
    | cons u us => simp [charsOfCodes, hc, hhigh]
  · rename_i hc
    have hhigh : isHighSurrogate (0xd800 + (c.toNat - 0x10000) / 0x400) = true := by
      simp [isHighSurrogate]
      omega
    have hlow : isLowSurrogate (0xdc00 + (c.toNat - 0x10000) % 0x400) = true := by
      simp [isLowSurrogate]
      omega
    have hcode : 0x10000 + (0xd800 + (c.toNat - 0x10000) / 0x400 - 0xd800) * 0x400 +
        (0xdc00 + (c.toNat - 0x10000) % 0x400 - 0xdc00) = c.toNat := by omega
    simp only [List.cons_append, List.nil_append, charsOfCodes, hhigh, hlow, Bool.and_self, if_true, hcode,
      Char.ofNat_toNat]

theorem codes_written (opening cs rest : List Char) :
    codes opening (cs.flatMap escapedChar ++ '"' :: rest) = .ok (cs.flatMap units, rest) := by
  induction cs with
  | nil => rfl
  | cons c cs ih =>
    obtain ⟨next, after, ha⟩ : ∃ next after, cs.flatMap escapedChar ++ '"' :: rest = next :: after :=
      List.exists_cons_of_ne_nil (by simp)
    rw [List.flatMap_cons, List.append_assoc, ha, codes_escapedChar, ← ha, ih]
    rfl

theorem charsOfCodes_written (cs : List Char) : charsOfCodes (cs.flatMap units) = cs := by
  induction cs with
  | nil => rfl
  | cons c cs ih => rw [List.flatMap_cons, charsOfCodes_units, ih]

theorem string_written (s : String) (rest : List Char) :
    string (s.toList.flatMap escapedChar ++ '"' :: rest) = .ok (s, rest) := by
  rw [string, codes_written]
  exact congrArg Except.ok (Prod.ext ((congrArg String.ofList (charsOfCodes_written _)).trans String.ofList_toList) rfl)

end Json

end GraphScript
