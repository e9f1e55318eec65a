/-
  GraphScript.Proofs.Json.Pairs — texts whose surrogates stand in pairs.

  Two escapes can be the halves of a surrogate pair, and are one character then. A half without the other
  is none: a text that holds it cannot be written, in whatever form. The reader has U+FFFD for it, so a
  result about what becomes of a text asks for one without (`IsPaired`). These are the texts of which
  each string is read as the code units it is written with (`AsWritten`).

  - `isPaired_iff`
-/
import GraphScript.Proofs.Json.Stops
import GraphScript.Proofs.Json.Strings

namespace GraphScript.Json

open Faults

/-- No half of a pair stands without the other. -/
def paired : List Nat → Bool
  | [] => true
  | [u] => !(isHighSurrogate u || isLowSurrogate u)
  | high :: low :: rest =>
    if isHighSurrogate high && isLowSurrogate low then paired rest
    else !(isHighSurrogate high || isLowSurrogate high) && paired (low :: rest)

/-- The same of the string that a text opens, if it opens one. -/
def opensPaired : List Char → Bool
  | '"' :: rest =>
    match codes ('"' :: rest) rest with
    | .ok (us, _) => paired us
    | .error _ => true
  | _ => true

/-- No string of the text has half of a surrogate pair alone. -/
def IsPaired (text : String) : Prop := ∀ cs ∈ text.toList.tails, opensPaired cs = true

instance (text : String) : Decidable (IsPaired text) :=
  inferInstanceAs (Decidable (∀ cs ∈ text.toList.tails, opensPaired cs = true))

/-- The code units of a code point, half of a pair being one. -/
def codeUnits (u : Nat) : List Nat :=
  if u < 0x10000 then [u] else [0xd800 + (u - 0x10000) / 0x400, 0xdc00 + (u - 0x10000) % 0x400]

/-- Each string of the text is read as the code units it is written with. -/
def AsWritten (text : String) : Prop :=
  ∀ rest us left, '"' :: rest ∈ text.toList.tails → codes ('"' :: rest) rest = .ok (us, left) →
    ∃ s, string rest = .ok (s, left) ∧ s.toList.flatMap units = us.flatMap codeUnits

/-! ## Code points -/

section

variable {u : Nat} {us xs ys : List Nat} {a b c d : Char} {opening cs left : List Char}

theorem hexDigit?_lt (h : hexDigit? c = some u) : u < 16 := by
  unfold hexDigit? at h
  split at h
  · rename_i hc
    have hnine : c.toNat ≤ 57 := hc.2
    cases h
    show c.toNat - 48 < 16
    omega
  split at h
  · rename_i hc
    have hlower : c.toNat ≤ 102 := hc.2
    cases h
    show c.toNat - 97 + 10 < 16
    omega
  split at h
  · rename_i hc
    have hupper : c.toNat ≤ 70 := hc.2
    cases h
    show c.toNat - 65 + 10 < 16
    omega
  · cases h

theorem unit?_lt (h : unit? a b c d = some u) : u < 0x10000 := by
  obtain ⟨x, hx, h⟩ := Option.bind_eq_some_iff.mp h
  obtain ⟨y, hy, h⟩ := Option.bind_eq_some_iff.mp h
  obtain ⟨z, hz, h⟩ := Option.bind_eq_some_iff.mp h
  obtain ⟨w, hw, h⟩ := Option.bind_eq_some_iff.mp h
  have := hexDigit?_lt hx
  have := hexDigit?_lt hy
  have := hexDigit?_lt hz
  have := hexDigit?_lt hw
  cases h
  omega

theorem toNat_lt (c : Char) : c.toNat < 0x110000 := by
  have := toNat_valid c
  omega

/-- Whatever a string holds is a code point. -/
theorem codes_lt (h : codes opening cs = .ok (us, left)) : ∀ u ∈ us, u < 0x110000 := by
  have hmore {u : Nat} {found : Except Stop (List Nat × List Char)} (hu : u < 0x110000)
      (ih : ∀ {us left}, found = .ok (us, left) → ∀ v ∈ us, v < 0x110000) {us : List Nat} {left : List Char}
      (h : behind [u] found = .ok (us, left)) : ∀ v ∈ us, v < 0x110000 := by
    obtain ⟨⟨more, rest⟩, hfound, hmore⟩ := map_eq_ok.mp h
    cases hmore
    exact List.forall_mem_cons.mpr ⟨hu, ih hfound⟩
  fun_induction codes opening cs generalizing us left with
  | case1 => cases h
  | case2 rest =>
    cases h
    exact List.forall_mem_nil _
  | case3 => cases h
  | case4 a b c d next after u hu ih => exact hmore (Nat.lt_trans (unit?_lt hu) (by decide)) ih h
  | case5 => cases h
  | case6 => cases h
  | case7 c rest _ d hd ih => exact hmore (toNat_lt d) ih h
  | case8 => cases h
  | case9 => cases h
  | case10 c rest _ _ _ _ _ ih => exact hmore (toNat_lt c) ih h

theorem isSurrogate_iff : (isHighSurrogate u || isLowSurrogate u) = true ↔ 0xd800 ≤ u ∧ u < 0xe000 := by
  simp only [isHighSurrogate, isLowSurrogate, Bool.or_eq_true, Bool.and_eq_true, decide_eq_true_eq]
  omega

theorem units_ofNat (hu : u.isValidChar) : units (Char.ofNat u) = codeUnits u := by
  have hcode : (Char.ofNat u).toNat = u := by
    rw [Char.ofNat, dif_pos hu]
    rfl
  show codeUnits (Char.ofNat u).toNat = _
  rw [hcode]

/-- Half of a pair is the only code point that is not read as itself. -/
theorem units_charOfCode (hu : u < 0x110000) : units (charOfCode u) ++ xs = codeUnits u ++ ys ↔
    (isHighSurrogate u || isLowSurrogate u) = false ∧ xs = ys := by
  unfold charOfCode
  split
  · rename_i hhalf
    have hbounds := isSurrogate_iff.mp hhalf
    have hunits : codeUnits u = [u] := if_pos (by omega)
    rw [hunits, hhalf]
    refine iff_of_false (fun h => ?_) (fun h => nomatch h.1)
    have hhead : 0xfffd = u := (List.cons.inj h).1
    omega
  · rename_i hhalf
    have hvalid : u < 0xd800 ∨ 0xdfff < u ∧ u < 0x110000 := by
      have hbounds := mt isSurrogate_iff.mpr hhalf
      omega
    rw [units_ofNat hvalid, List.append_cancel_left_eq]
    exact (and_iff_right (Bool.eq_false_iff.mpr hhalf)).symm

/-- What is read has the code units that are written exactly if no half stands alone. -/
theorem charsOfCodes_units_eq (h : ∀ u ∈ us, u < 0x110000) :
    (charsOfCodes us).flatMap units = us.flatMap codeUnits ↔ paired us = true := by
  fun_induction charsOfCodes us with
  | case1 => exact iff_of_true rfl rfl
  | case2 u =>
    have hu := h u List.mem_cons_self
    rw [List.flatMap_singleton, List.flatMap_singleton, ← List.append_nil (units _), ← List.append_nil (codeUnits _),
      units_charOfCode hu, paired, Bool.not_eq_true']
    exact and_iff_left rfl
  | case3 high low rest hpair ih =>
    obtain ⟨hhigh, hlow⟩ := Bool.and_eq_true_iff.mp hpair
    simp only [isHighSurrogate, isLowSurrogate, Bool.and_eq_true, decide_eq_true_eq] at hhigh hlow
    have hunits : units (Char.ofNat (0x10000 + (high - 0xd800) * 0x400 + (low - 0xdc00))) = [high, low] := by
      generalize hcode : 0x10000 + (high - 0xd800) * 0x400 + (low - 0xdc00) = code
      have hfirst : 0xd800 + (code - 0x10000) / 0x400 = high := by omega
      have hsecond : 0xdc00 + (code - 0x10000) % 0x400 = low := by omega
      rw [units_ofNat (.inr (by omega)), codeUnits, if_neg (by omega), hfirst, hsecond]
    have hcodes : codeUnits high ++ codeUnits low = [high, low] := by
      rw [codeUnits, codeUnits, if_pos (by omega), if_pos (by omega)]
      rfl
    rw [List.flatMap_cons, List.flatMap_cons, List.flatMap_cons, ← List.append_assoc, hcodes, hunits,
      List.append_cancel_left_eq, paired, if_pos hpair]
    exact ih fun u hu => h u (.tail _ (.tail _ hu))
  | case4 high low rest hpair ih =>
    obtain ⟨hhigh, hrest⟩ := List.forall_mem_cons.mp h
    rw [List.flatMap_cons, List.flatMap_cons, units_charOfCode hhigh, ih hrest, paired, if_neg hpair,
      Bool.and_eq_true, Bool.not_eq_true']

end

/-- The texts without half a pair are those of which each string is read as it is written. -/
theorem isPaired_iff (text : String) : IsPaired text ↔ AsWritten text := by
  have hstring {rest us left} (hcodes : codes ('"' :: rest) rest = .ok (us, left)) :
      string rest = .ok (String.ofList (charsOfCodes us), left) := by
    rw [string, hcodes]
    rfl
  constructor
  · intro h rest us left hrest hcodes
    have hpaired : paired us = true := by
      have hopens := h _ hrest
      rw [opensPaired, hcodes] at hopens
      exact hopens
    refine ⟨_, hstring hcodes, ?_⟩
    rw [String.toList_ofList]
    exact (charsOfCodes_units_eq (codes_lt hcodes)).mpr hpaired
  · intro h cs hcs
    unfold opensPaired
    split
    · rename_i rest
      split
      · rename_i us left hcodes
        obtain ⟨s, hs, hwritten⟩ := h rest us left hcs hcodes
        obtain rfl : s = String.ofList (charsOfCodes us) :=
          (Prod.mk.inj (Except.ok.inj (hs.symm.trans (hstring hcodes)))).1
        rw [String.toList_ofList] at hwritten
        exact (charsOfCodes_units_eq (codes_lt hcodes)).mp hwritten
      · rfl
    · rfl

/-- Both halves of a pair, and one of them alone. -/
example : IsPaired "[\"\\ud83d\\ude00\"]" ∧ ¬ IsPaired "[\"\\ud83d\"]" := by decide +kernel

end GraphScript.Json
