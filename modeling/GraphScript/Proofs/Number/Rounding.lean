/-
  GraphScript.Proofs.Number.Rounding — the nearest number depends on a value alone.

  A fraction is rounded by its value, however it is written, and so is a decimal: the two tests that
  `ofDecimal` makes beforehand only answer sooner what the rounding would. The value of a rank is
  rounded to that rank.

  - `rankOfRatio_congr`, `ofDecimal_congr`: by value.
  - `rankOfRatio_ratio`: a number is its own nearest.
-/
import Mathlib.Algebra.Order.Field.Power
import Mathlib.Data.Rat.Cast.Order
import Mathlib.Tactic.FieldSimp
import Mathlib.Tactic.GCongr
import Mathlib.Tactic.Linarith
import Mathlib.Tactic.NormNum
import Mathlib.Tactic.Positivity
import Mathlib.Tactic.Ring
import GraphScript.Number.Binary64

namespace GraphScript

/-! ## Fractions -/

theorem roundHalfEven_mul_left {k : Nat} (hk : 0 < k) (num den : Nat) :
    roundHalfEven (k * num) (k * den) = roundHalfEven num den := by
  have hlt : 2 * (k * (num % den)) < k * den ↔ 2 * (num % den) < den := by
    rw [Nat.mul_left_comm]
    exact Nat.mul_lt_mul_left hk
  have heq : 2 * (k * (num % den)) = k * den ↔ 2 * (num % den) = den := by
    rw [Nat.mul_left_comm]
    exact Nat.mul_right_inj hk.ne'
  simp only [roundHalfEven, Nat.mul_div_mul_left num den hk, Nat.mul_mod_mul_left, hlt, heq]

theorem roundHalfEven_congr {num den num' den' : Nat} (hd : 0 < den) (hd' : 0 < den')
    (h : num * den' = num' * den) : roundHalfEven num den = roundHalfEven num' den' := by
  rw [← roundHalfEven_mul_left hd' num den, ← roundHalfEven_mul_left hd num' den', Nat.mul_comm den' num, h,
    Nat.mul_comm num' den, Nat.mul_comm den' den]

theorem roundHalfEven_mul_self (n : Nat) {den : Nat} (hd : 0 < den) : roundHalfEven (n * den) den = n := by
  simp [roundHalfEven, Nat.mul_div_cancel n hd, hd]

theorem roundHalfEven_eq_zero {num den : Nat} (h : 2 * num < den) : roundHalfEven num den = 0 := by
  simp [roundHalfEven, Nat.div_eq_of_lt (show num < den by omega), Nat.mod_eq_of_lt (show num < den by omega), h]

/-- The two powers of a scale, in one. -/
theorem pow_toNat_div {b : Nat} (hb : 0 < b) (e : Int) :
    ((Nat.pow b e.toNat : Nat) : ℚ) / (Nat.pow b (-e).toNat : Nat) = (b : ℚ) ^ e := by
  have hb' : (b : ℚ) ≠ 0 := by exact_mod_cast hb.ne'
  obtain ⟨n, rfl | rfl⟩ := e.eq_nat_or_neg <;> simp

namespace Binary64

/-! ## Binades -/

theorem lt_zpow_iff {b num den : Nat} (hb : 0 < b) (hd : 0 < den) (e : Int) :
    num * Nat.pow b (-e).toNat < den * Nat.pow b e.toNat ↔ (num / den : ℚ) < (b : ℚ) ^ e := by
  have hd' : (0 : ℚ) < den := by exact_mod_cast hd
  have hp : (0 : ℚ) < (Nat.pow b (-e).toNat : Nat) := by exact_mod_cast Nat.pow_pos hb
  rw [← pow_toNat_div hb, div_lt_div_iff₀ hd' hp]
  norm_cast
  rw [Nat.mul_comm den]

/-- The lengths of two numbers in a base give the length of their quotient but for one place, and one comparison
    decides which. -/
theorem scale_bounds {b num den i j : Nat} (hb : 1 < b) (hd : 0 < den) (hnum : b ^ i ≤ num ∧ num < b ^ (i + 1))
    (hden : b ^ j ≤ den ∧ den < b ^ (j + 1)) {e p : Int} (he : e = i - j)
    (hp : p = if num * Nat.pow b (-e).toNat < den * Nat.pow b e.toNat then e - 1 else e) :
    (b : ℚ) ^ p ≤ num / den ∧ (num / den : ℚ) < (b : ℚ) ^ (p + 1) := by
  have hb0 : (b : ℚ) ≠ 0 := by exact_mod_cast (Nat.zero_lt_of_lt hb).ne'
  have hd' : (0 : ℚ) < den := by exact_mod_cast hd
  have hnum' : (b : ℚ) ^ (i : Int) ≤ num ∧ (num : ℚ) < (b : ℚ) ^ (i + 1 : Int) :=
    ⟨by exact_mod_cast hnum.1, by exact_mod_cast hnum.2⟩
  have hden' : (b : ℚ) ^ (j : Int) ≤ den ∧ (den : ℚ) < (b : ℚ) ^ (j + 1 : Int) :=
    ⟨by exact_mod_cast hden.1, by exact_mod_cast hden.2⟩
  have hlow : (b : ℚ) ^ (e - 1) ≤ num / den := by
    rw [le_div_iff₀ hd']
    calc (b : ℚ) ^ (e - 1) * den ≤ (b : ℚ) ^ (e - 1) * (b : ℚ) ^ (j + 1 : Int) := by gcongr; exact hden'.2.le
      _ = (b : ℚ) ^ (i : Int) := by rw [← zpow_add₀ hb0, he]; congr 1; ring
      _ ≤ num := hnum'.1
  have hhigh : (num / den : ℚ) < (b : ℚ) ^ (e + 1) := by
    rw [div_lt_iff₀ hd']
    calc (num : ℚ) < (b : ℚ) ^ (i + 1 : Int) := hnum'.2
      _ = (b : ℚ) ^ (e + 1) * (b : ℚ) ^ (j : Int) := by rw [← zpow_add₀ hb0, he]; congr 1; ring
      _ ≤ (b : ℚ) ^ (e + 1) * den := by gcongr; exact hden'.1
  have hbelow : num * Nat.pow b (-e).toNat < den * Nat.pow b e.toNat ↔ (num / den : ℚ) < (b : ℚ) ^ e :=
    lt_zpow_iff (Nat.zero_lt_of_lt hb) hd e
  split at hp
  · rename_i h
    subst hp
    exact ⟨hlow, by simpa using hbelow.mp h⟩
  · rename_i h
    subst hp
    exact ⟨not_lt.mp (mt hbelow.mpr h), hhigh⟩

theorem binade_bounds {num den : Nat} (hn : 0 < num) (hd : 0 < den) :
    (2 : ℚ) ^ binade num den ≤ num / den ∧ (num / den : ℚ) < 2 ^ (binade num den + 1) :=
  scale_bounds one_lt_two hd ⟨Nat.log2_self_le hn.ne', Nat.lt_log2_self⟩ ⟨Nat.log2_self_le hd.ne', Nat.lt_log2_self⟩
    rfl rfl

/-- There is one binade for a value. -/
theorem binade_eq {num den : Nat} (hn : 0 < num) (hd : 0 < den) {e : Int} (hlow : (2 : ℚ) ^ e ≤ num / den)
    (hhigh : (num / den : ℚ) < 2 ^ (e + 1)) : binade num den = e := by
  obtain ⟨h, h'⟩ := binade_bounds hn hd
  have hle := (zpow_lt_zpow_iff_right₀ one_lt_two).mp (h.trans_lt hhigh)
  have hge := (zpow_lt_zpow_iff_right₀ one_lt_two).mp (hlow.trans_lt h')
  omega

theorem binade_lt {num den : Nat} (hn : 0 < num) (hd : 0 < den) {e : Int} (h : (num / den : ℚ) < 2 ^ e) :
    binade num den < e :=
  (zpow_lt_zpow_iff_right₀ (one_lt_two (α := ℚ))).mp ((binade_bounds hn hd).1.trans_lt h)

theorem le_binade {num den : Nat} (hn : 0 < num) (hd : 0 < den) {e : Int} (h : (2 : ℚ) ^ e ≤ num / den) :
    e ≤ binade num den :=
  Int.lt_add_one_iff.mp ((zpow_lt_zpow_iff_right₀ (one_lt_two (α := ℚ))).mp (h.trans_lt (binade_bounds hn hd).2))

/-! ## Ranks -/

theorem rankOfRatio_congr {num den num' den' : Nat} (hd : 0 < den) (hd' : 0 < den') (h : num * den' = num' * den) :
    rankOfRatio num den = rankOfRatio num' den' := by
  by_cases hn : num = 0
  · have hn' : num' = 0 := by simpa [hn, hd.ne'] using h.symm
    rw [rankOfRatio, rankOfRatio, if_pos hn, if_pos hn']
  · have hn' : num' ≠ 0 := by
      rintro rfl
      simp [hn, hd'.ne'] at h
    have hvalue : (num / den : ℚ) = num' / den' := by
      rw [div_eq_div_iff (by exact_mod_cast hd.ne') (by exact_mod_cast hd'.ne')]
      exact_mod_cast h
    have hb : binade num den = binade num' den' := by
      obtain ⟨hlow, hhigh⟩ := binade_bounds (Nat.pos_of_ne_zero hn') hd'
      rw [← hvalue] at hlow hhigh
      exact binade_eq (Nat.pos_of_ne_zero hn) hd hlow hhigh
    rw [rankOfRatio, rankOfRatio, if_neg hn, if_neg hn', hb]
    dsimp only
    congr 1
    refine roundHalfEven_congr (Nat.mul_pos hd (Nat.two_pow_pos _)) (Nat.mul_pos hd' (Nat.two_pow_pos _)) ?_
    rw [Nat.mul_mul_mul_comm, h, Nat.mul_mul_mul_comm]

theorem two_mul_lt {num den k : Nat} (hd : 0 < den) (h : (num / den : ℚ) < 2 ^ (-(k + 1) : Int)) :
    2 * (num * Nat.pow 2 k) < den := by
  rw [div_lt_iff₀ (by exact_mod_cast hd), zpow_neg, ← div_eq_inv_mul, lt_div_iff₀ (by positivity)] at h
  have h' : num * 2 ^ (k + 1) < den := by exact_mod_cast h
  rwa [pow_succ, ← Nat.mul_assoc, Nat.mul_comm] at h'

/-- A value below half of the least number is rounded to zero. -/
theorem rankOfRatio_eq_zero {num den : Nat} (hd : 0 < den) (h : (num / den : ℚ) < 2 ^ (-1075 : Int)) :
    rankOfRatio num den = 0 := by
  by_cases hn : num = 0
  · rw [rankOfRatio, if_pos hn]
  · have hb : binade num den < -1075 := binade_lt (Nat.pos_of_ne_zero hn) hd h
    have he : max (binade num den) (-1022) = -1022 := max_eq_right (by omega)
    have hscale : (-((-1022 : Int) - 52)).toNat = 1074 ∧ ((-1022 : Int) - 52).toNat = 0 := ⟨rfl, rfl⟩
    have hfirst : ((-1022 : Int) + 1022).toNat = 0 := rfl
    have hone : den * Nat.pow 2 0 = den := Nat.mul_one den
    rw [rankOfRatio, if_neg hn, he]
    dsimp only
    rw [hscale.1, hscale.2, hfirst, hone, Nat.zero_mul, Nat.zero_add]
    have hsmall := two_mul_lt (k := 1074) hd h
    exact roundHalfEven_eq_zero hsmall

/-- A value of twice the last binade and more has no finite number near it. -/
theorem ranks_le_rankOfRatio {num den : Nat} (hd : 0 < den) (h : (2 : ℚ) ^ (1025 : Int) ≤ num / den) :
    ranks ≤ rankOfRatio num den := by
  have hn : num ≠ 0 := by
    rintro rfl
    rw [Nat.cast_zero, zero_div] at h
    exact absurd h (not_le.mpr (zpow_pos two_pos _))
  have hb : 1025 ≤ binade num den := le_binade (Nat.pos_of_ne_zero hn) hd h
  rw [rankOfRatio, if_neg hn]
  dsimp only
  refine le_add_right (Nat.mul_le_mul_right _ ?_)
  omega

/-! ## The value of a rank -/

theorem ratio_pos (rank : Nat) : 0 < (ratio rank).2 := Nat.two_pow_pos _

theorem ratio_value (rank : Nat) :
    ((ratio rank).1 / (ratio rank).2 : ℚ) = significand rank * 2 ^ exponent rank := by
  rw [ratio, ← Nat.cast_two (R := ℚ), ← pow_toNat_div two_pos, Nat.cast_mul, mul_div_assoc]

theorem significand_pos {rank : Nat} (h : rank ≠ 0) : 0 < significand rank := by
  simp only [significand, Nat.pow_eq]
  split <;> omega

theorem ratio_ne_zero {rank : Nat} (h : rank ≠ 0) : (ratio rank).1 ≠ 0 :=
  (Nat.mul_pos (significand_pos h) (Nat.two_pow_pos _)).ne'

/-- The exponent of a number is that of its binade, but not below that of the least numbers. -/
theorem binade_ratio {rank : Nat} (h : rank ≠ 0) :
    max (binade (ratio rank).1 (ratio rank).2) (-1022) = exponent rank + 52 := by
  have hpos := Nat.pos_of_ne_zero (ratio_ne_zero h)
  by_cases hr : rank < 2 ^ 52
  · have he : exponent rank = -1074 := if_pos hr
    have hs : significand rank = rank := if_pos hr
    have hb : binade (ratio rank).1 (ratio rank).2 < -1022 := by
      refine binade_lt hpos (ratio_pos rank) ?_
      rw [ratio_value, he, hs]
      calc (rank : ℚ) * 2 ^ (-1074 : Int) < 2 ^ 52 * 2 ^ (-1074 : Int) := by gcongr; exact_mod_cast hr
        _ = 2 ^ (-1022 : Int) := by rw [← zpow_natCast, ← zpow_add₀ two_ne_zero]; norm_num
    rw [he]
    omega
  · have he : exponent rank = (rank / 2 ^ 52 : Nat) - 1075 := if_neg hr
    have hs : significand rank = 2 ^ 52 + rank % 2 ^ 52 := if_neg hr
    have hbounds : 2 ^ 52 ≤ significand rank ∧ significand rank < 2 ^ 53 := by omega
    have hb : binade (ratio rank).1 (ratio rank).2 = exponent rank + 52 := by
      refine binade_eq hpos (ratio_pos rank) ?_ ?_
      · rw [ratio_value, zpow_add₀ two_ne_zero, mul_comm]
        gcongr
        exact_mod_cast hbounds.1
      · rw [ratio_value, add_assoc, zpow_add₀ two_ne_zero, mul_comm]
        gcongr
        exact_mod_cast hbounds.2
    rw [hb]
    omega

theorem rank_eq (rank : Nat) : (exponent rank + 1074).toNat * 2 ^ 52 + significand rank = rank := by
  simp only [exponent, significand, Nat.pow_eq]
  split <;> omega

theorem rankOfRatio_ratio (rank : Nat) : rankOfRatio (ratio rank).1 (ratio rank).2 = rank := by
  by_cases h : rank = 0
  · subst h
    rfl
  · rw [rankOfRatio, if_neg (ratio_ne_zero h), binade_ratio h]
    have hunit : exponent rank + 52 - 52 = exponent rank := by ring
    have hround : roundHalfEven ((ratio rank).1 * Nat.pow 2 (-exponent rank).toNat)
        ((ratio rank).2 * Nat.pow 2 (exponent rank).toNat) = significand rank := by
      rw [ratio, Nat.mul_assoc, Nat.mul_comm (Nat.pow 2 (exponent rank).toNat)]
      exact roundHalfEven_mul_self _ (Nat.mul_pos (Nat.two_pow_pos _) (Nat.two_pow_pos _))
    dsimp only
    rw [hunit, hround, add_assoc]
    exact rank_eq rank

theorem ofRatio_ratio (negative : Bool) (rank : Nat) :
    ofRatio negative (ratio rank).1 (ratio rank).2 = ofRank negative rank := by
  rw [ofRatio, rankOfRatio_ratio]

/-! ## Decimals -/

theorem decimal_value (digits : Nat) (e : Int) :
    ((digits * Nat.pow 10 e.toNat : Nat) / (Nat.pow 10 (-e).toNat : Nat) : ℚ) = digits * 10 ^ e := by
  rw [← Nat.cast_ofNat (R := ℚ), ← pow_toNat_div (by decide : 0 < 10), Nat.cast_mul, mul_div_assoc]

theorem eight_zpow (e : Int) : (8 : ℚ) ^ e = 2 ^ (3 * e) := by
  rw [zpow_mul]
  norm_num

theorem ten_pow_pos (n : Nat) : 0 < Nat.pow 10 n := Nat.pow_pos (by decide)

/-- The tests before the rounding do not change its result. -/
theorem ofDecimal_eq (negative : Bool) (digits : Nat) (e : Int) :
    ofDecimal negative digits e = ofRatio negative (digits * Nat.pow 10 e.toNat) (Nat.pow 10 (-e).toNat) := by
  unfold ofDecimal
  split
  · rename_i h
    rw [ofRatio]
    congr 1
    by_cases hz : digits = 0
    · rw [hz, Nat.zero_mul, rankOfRatio, if_pos rfl]
    · refine (rankOfRatio_eq_zero (ten_pow_pos _) ?_).symm
      obtain ⟨n, rfl⟩ : ∃ n : Nat, e = -n := ⟨(-e).toNat, by omega⟩
      rw [decimal_value]
      calc (digits : ℚ) * 10 ^ (-n : Int) ≤ 2 ^ (digits.log2 + 1 : Int) * 8 ^ (-n : Int) := by
            have hdigits : (digits : ℚ) ≤ 2 ^ (digits.log2 + 1 : Int) := by
              exact_mod_cast (Nat.lt_log2_self (n := digits)).le
            rw [zpow_neg, zpow_neg, zpow_natCast, zpow_natCast]
            gcongr
            norm_num
        _ = 2 ^ (digits.log2 + 1 + 3 * (-n : Int)) := by rw [eight_zpow, ← zpow_add₀ two_ne_zero]
        _ < 2 ^ (-1075 : Int) := zpow_lt_zpow_right₀ one_lt_two (by omega)
  · rename_i h
    split
    · rename_i he
      obtain ⟨n, rfl⟩ : ∃ n : Nat, e = n := ⟨e.toNat, by omega⟩
      have hdigits : (1 : ℚ) ≤ digits := by exact_mod_cast Nat.pos_of_ne_zero fun hz => h (.inl hz)
      rw [ofRatio, ofRank, dif_neg]
      refine not_lt.mpr (ranks_le_rankOfRatio (ten_pow_pos _) ?_)
      rw [decimal_value]
      calc (2 : ℚ) ^ (1025 : Int) ≤ 2 ^ (3 * n : Int) := zpow_le_zpow_right₀ one_le_two (by omega)
        _ = 8 ^ (n : Int) := (eight_zpow n).symm
        _ ≤ 1 * 10 ^ (n : Int) := by
          rw [one_mul, zpow_natCast, zpow_natCast]
          gcongr
          norm_num
        _ ≤ digits * 10 ^ (n : Int) := by gcongr
    · rfl

/-- A decimal is rounded by its value. -/
theorem ofDecimal_congr (negative : Bool) {m n : Nat} {e f : Int} (h : (m * 10 ^ e : ℚ) = n * 10 ^ f) :
    ofDecimal negative m e = ofDecimal negative n f := by
  have hd (k : Nat) : ((Nat.pow 10 k : Nat) : ℚ) ≠ 0 := by exact_mod_cast (ten_pow_pos k).ne'
  rw [← decimal_value, ← decimal_value, div_eq_div_iff (hd _) (hd _)] at h
  rw [ofDecimal_eq, ofDecimal_eq, ofRatio, ofRatio]
  congr 1
  exact rankOfRatio_congr (ten_pow_pos _) (ten_pow_pos _) (by exact_mod_cast h)

end Binary64

end GraphScript
