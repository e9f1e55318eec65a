/-
  GraphScript.Proofs.Number.Order — the order of the numbers is that of their ranks.

  Of two values the larger one is not rounded below the smaller one: within a binade because the
  rounding to a whole number keeps the order, from one binade to the next because a rounded value
  leaves its binade at the upper end at most. Since a number is its own nearest, the ranks are in the
  order of the numbers' values, and a value that no number has lies between those of neighbours.

  - `rankOf_mono`, `magnitude_lt_iff`: the order.
  - `magnitude_rankOf_natCast`: whole numbers below `2 ^ 53` are numbers themselves.
-/
import GraphScript.Proofs.Number.Rounding

namespace GraphScript

/-! ## Rounding to a whole number -/

theorem roundHalfEven_le_roundHalfEven {m n den : Nat} (h : m ≤ n) : roundHalfEven m den ≤ roundHalfEven n den := by
  have hfloor : m / den ≤ n / den := Nat.div_le_div_right h
  have hm := Nat.div_add_mod m den
  have hn := Nat.div_add_mod n den
  simp only [roundHalfEven]
  rcases Nat.lt_or_eq_of_le hfloor with hlt | heq
  · split <;> split <;> omega
  · -- between the same whole numbers: the remainders are in order
    rw [heq] at hm ⊢
    have hrest : m % den ≤ n % den := by omega
    split <;> split <;> omega

theorem roundHalfEven_mono {num den num' den' : Nat} (hd : 0 < den) (hd' : 0 < den')
    (h : num * den' ≤ num' * den) : roundHalfEven num den ≤ roundHalfEven num' den' := by
  rw [← roundHalfEven_mul_left hd' num den, ← roundHalfEven_mul_left hd num' den', Nat.mul_comm den' num,
    Nat.mul_comm den num', Nat.mul_comm den' den]
  exact roundHalfEven_le_roundHalfEven h

theorem le_roundHalfEven {n num den : Nat} (hd : 0 < den) (h : n * den ≤ num) : n ≤ roundHalfEven num den := by
  rw [← roundHalfEven_mul_self n hd]
  exact roundHalfEven_le_roundHalfEven h

theorem roundHalfEven_le {n num den : Nat} (hd : 0 < den) (h : num ≤ n * den) : roundHalfEven num den ≤ n := by
  rw [← roundHalfEven_mul_self n hd]
  exact roundHalfEven_le_roundHalfEven h

namespace Binary64

/-! ## Rounding to a number -/

/-- The exponent under which a value is rounded: that of its binade, but not below that of the least numbers. -/
def scale (num den : Nat) : Int := max (binade num den) (-1022)

/-- What a value is in units of the last place. -/
theorem rankOfRatio_eq {num den : Nat} (hn : num ≠ 0) : rankOfRatio num den =
    (scale num den + 1022).toNat * 2 ^ 52 +
      roundHalfEven (num * Nat.pow 2 (-(scale num den - 52)).toNat) (den * Nat.pow 2 (scale num den - 52).toNat) := by
  rw [rankOfRatio, if_neg hn]
  rfl

theorem scaled_value (num den : Nat) (unit : Int) :
    ((num * Nat.pow 2 (-unit).toNat : Nat) / (den * Nat.pow 2 unit.toNat : Nat) : ℚ) = num / den / 2 ^ unit := by
  have hpow := pow_toNat_div two_pos (-unit)
  rw [neg_neg, Nat.cast_ofNat] at hpow
  rw [Nat.cast_mul, Nat.cast_mul, mul_div_mul_comm, hpow, zpow_neg, div_eq_mul_inv (num / den : ℚ)]

/-- A rounded value is not above its binade. -/
theorem rankOfRatio_le {num den : Nat} (hn : 0 < num) (hd : 0 < den) :
    rankOfRatio num den ≤ ((scale num den + 1022).toNat + 2) * 2 ^ 52 := by
  have hd' : 0 < den * Nat.pow 2 (scale num den - 52).toNat := Nat.mul_pos hd (Nat.two_pow_pos _)
  have hround : roundHalfEven (num * Nat.pow 2 (-(scale num den - 52)).toNat)
      (den * Nat.pow 2 (scale num den - 52).toNat) ≤ 2 ^ 53 := by
    refine roundHalfEven_le hd' ?_
    have hvalue : (num / den : ℚ) ≤ 2 ^ (53 : Int) * 2 ^ (scale num den - 52) := by
      rw [← zpow_add₀ two_ne_zero]
      refine (binade_bounds hn hd).2.le.trans (zpow_le_zpow_right₀ one_le_two ?_)
      rw [scale]
      omega
    rw [← div_le_iff₀ (zpow_pos two_pos _), ← scaled_value, div_le_iff₀ (by exact_mod_cast hd')] at hvalue
    exact_mod_cast hvalue
  rw [rankOfRatio_eq hn.ne', Nat.add_mul]
  omega

/-- Nor is it below it. -/
theorem le_rankOfRatio {num den : Nat} (hn : 0 < num) (hd : 0 < den) (h : -1022 ≤ binade num den) :
    ((scale num den + 1022).toNat + 1) * 2 ^ 52 ≤ rankOfRatio num den := by
  have hd' : 0 < den * Nat.pow 2 (scale num den - 52).toNat := Nat.mul_pos hd (Nat.two_pow_pos _)
  have hround : 2 ^ 52 ≤ roundHalfEven (num * Nat.pow 2 (-(scale num den - 52)).toNat)
      (den * Nat.pow 2 (scale num den - 52).toNat) := by
    refine le_roundHalfEven hd' ?_
    have hvalue : 2 ^ (52 : Int) * 2 ^ (scale num den - 52) ≤ (num / den : ℚ) := by
      rw [← zpow_add₀ two_ne_zero]
      refine le_trans (zpow_le_zpow_right₀ one_le_two ?_) (binade_bounds hn hd).1
      rw [scale]
      omega
    rw [← le_div_iff₀ (zpow_pos two_pos _), ← scaled_value, le_div_iff₀ (by exact_mod_cast hd')] at hvalue
    exact_mod_cast hvalue
  rw [rankOfRatio_eq hn.ne', Nat.add_mul]
  omega

theorem rankOfRatio_mono {num den num' den' : Nat} (hd : 0 < den) (hd' : 0 < den')
    (h : num * den' ≤ num' * den) : rankOfRatio num den ≤ rankOfRatio num' den' := by
  rcases Nat.eq_zero_or_pos num with rfl | hn
  · rw [rankOfRatio, if_pos rfl]
    exact Nat.zero_le _
  have hn' : 0 < num' := Nat.pos_of_mul_pos_right ((Nat.mul_pos hn hd').trans_le h)
  have hvalue : (num / den : ℚ) ≤ num' / den' := by
    rw [div_le_div_iff₀ (by exact_mod_cast hd) (by exact_mod_cast hd')]
    exact_mod_cast h
  have hbinade : binade num den ≤ binade num' den' := le_binade hn' hd' ((binade_bounds hn hd).1.trans hvalue)
  have hscale : scale num den ≤ scale num' den' := max_le_max_right _ hbinade
  rcases lt_or_eq_of_le hscale with hlt | heq
  · have hleast : -1022 ≤ scale num den := le_max_right _ _
    have hnormal : -1022 ≤ binade num' den' := by
      simp only [scale] at hlt
      omega
    calc rankOfRatio num den ≤ ((scale num den + 1022).toNat + 2) * 2 ^ 52 := rankOfRatio_le hn hd
      _ ≤ ((scale num' den' + 1022).toNat + 1) * 2 ^ 52 := Nat.mul_le_mul_right _ (by omega)
      _ ≤ rankOfRatio num' den' := le_rankOfRatio hn' hd' hnormal
  · rw [rankOfRatio_eq hn.ne', rankOfRatio_eq hn'.ne', heq]
    refine Nat.add_le_add_left (roundHalfEven_mono (Nat.mul_pos hd (Nat.two_pow_pos _))
      (Nat.mul_pos hd' (Nat.two_pow_pos _)) ?_) _
    rw [Nat.mul_mul_mul_comm, Nat.mul_mul_mul_comm num', Nat.mul_comm (Nat.pow 2 _)]
    exact Nat.mul_le_mul_right _ h

/-! ## By value -/

/-- The value of a rank. -/
def magnitude (rank : Nat) : ℚ := (ratio rank).1 / (ratio rank).2

/-- The rank of the number nearest to a value that is not negative. -/
def rankOf (q : ℚ) : Nat := rankOfRatio q.num.toNat q.den

theorem magnitude_nonneg (rank : Nat) : 0 ≤ magnitude rank := div_nonneg (Nat.cast_nonneg _) (Nat.cast_nonneg _)

theorem rankOf_div (num : Nat) {den : Nat} (hd : 0 < den) : rankOf (num / den : ℚ) = rankOfRatio num den := by
  have hd' : (den : ℚ) ≠ 0 := by exact_mod_cast hd.ne'
  have hnonneg : 0 ≤ (num / den : ℚ).num := Rat.num_nonneg.mpr (div_nonneg (Nat.cast_nonneg _) (Nat.cast_nonneg _))
  refine rankOfRatio_congr (Rat.den_pos _) hd ?_
  have hvalue : ((num / den : ℚ).num : ℚ) * den = num * ((num / den : ℚ).den : ℚ) := by
    rw [← div_eq_div_iff (by exact_mod_cast Rat.den_ne_zero _) hd', Rat.num_div_den]
  have hint : (num / den : ℚ).num * den = num * ((num / den : ℚ).den : Int) := by exact_mod_cast hvalue
  zify
  rw [Int.toNat_of_nonneg hnonneg]
  exact hint

theorem rankOf_mono {q r : ℚ} (hq : 0 ≤ q) (h : q ≤ r) : rankOf q ≤ rankOf r := by
  have hqn : 0 ≤ q.num := Rat.num_nonneg.mpr hq
  have hrn : 0 ≤ r.num := Rat.num_nonneg.mpr (hq.trans h)
  refine rankOfRatio_mono q.den_pos r.den_pos ?_
  zify
  rw [Int.toNat_of_nonneg hqn, Int.toNat_of_nonneg hrn]
  exact (Rat.le_iff _ _).mp h

theorem rankOf_magnitude (rank : Nat) : rankOf (magnitude rank) = rank :=
  (rankOf_div _ (ratio_pos rank)).trans (rankOfRatio_ratio rank)

theorem magnitude_lt_iff {a b : Nat} : magnitude a < magnitude b ↔ a < b := by
  have hle {a b : Nat} (h : magnitude a ≤ magnitude b) : a ≤ b := by
    have := rankOf_mono (magnitude_nonneg a) h
    rwa [rankOf_magnitude, rankOf_magnitude] at this
  constructor
  · intro h
    refine lt_of_le_of_ne (hle h.le) ?_
    rintro rfl
    exact h.false
  · intro h
    by_contra hn
    exact absurd (hle (not_lt.mp hn)) (Nat.not_le.mpr h)

theorem magnitude_le_iff {a b : Nat} : magnitude a ≤ magnitude b ↔ a ≤ b := by
  rw [← not_lt, magnitude_lt_iff, Nat.not_lt]

theorem magnitude_inj {a b : Nat} : magnitude a = magnitude b ↔ a = b := by
  rw [le_antisymm_iff, magnitude_le_iff, magnitude_le_iff, Nat.le_antisymm_iff]

theorem magnitude_zero : magnitude 0 = 0 := by
  rw [magnitude, show (ratio 0).1 = 0 from rfl, Nat.cast_zero, zero_div]

/-! ## Whole numbers -/

theorem magnitude_normal {s : Nat} (hs : 2 ^ 52 ≤ s ∧ s < 2 ^ 53) (k : Nat) :
    magnitude (k * 2 ^ 52 + s) = s * 2 ^ (k - 1074 : Int) := by
  have hrank : ¬ k * 2 ^ 52 + s < Nat.pow 2 52 := by
    simp only [Nat.pow_eq]
    omega
  have hsignificand : significand (k * 2 ^ 52 + s) = s := by
    rw [significand, if_neg hrank]
    simp only [Nat.pow_eq]
    omega
  have hexponent : exponent (k * 2 ^ 52 + s) = k - 1074 := by
    rw [exponent, if_neg hrank]
    simp only [Nat.pow_eq]
    omega
  rw [magnitude, ratio_value, hsignificand, hexponent]

/-- A whole number that has its place in a significand is a number itself. -/
theorem magnitude_rankOf_natCast {n : Nat} (h : n < 2 ^ 53) : magnitude (rankOf n) = n := by
  rcases Nat.eq_zero_or_pos n with rfl | hn
  · exact magnitude_zero
  have hone := rankOf_div n Nat.one_pos
  rw [Nat.cast_one, div_one] at hone
  obtain ⟨hlow, hhigh⟩ := binade_bounds hn Nat.one_pos
  rw [Nat.cast_one, div_one] at hlow hhigh
  have hnonneg : 0 ≤ binade n 1 := le_binade hn Nat.one_pos (by simpa using Nat.one_le_iff_ne_zero.mpr hn.ne')
  have hbelow : binade n 1 < 53 := binade_lt hn Nat.one_pos (by rw [Nat.cast_one, div_one]; exact_mod_cast h)
  obtain ⟨k, hk⟩ := Int.eq_ofNat_of_zero_le hnonneg
  have hscale : scale n 1 = k := by
    rw [scale, hk]
    omega
  -- the number fills a significand once it is scaled up
  have hs : 2 ^ 52 ≤ n * 2 ^ (52 - k) ∧ n * 2 ^ (52 - k) < 2 ^ 53 := by
    rw [hk] at hlow hhigh
    have hlow' : 2 ^ k ≤ n := by exact_mod_cast hlow
    have hhigh' : n < 2 ^ (k + 1) := by exact_mod_cast hhigh
    constructor
    · calc 2 ^ 52 = 2 ^ k * 2 ^ (52 - k) := by rw [← Nat.pow_add]; congr 1; omega
        _ ≤ n * 2 ^ (52 - k) := Nat.mul_le_mul_right _ hlow'
    · calc n * 2 ^ (52 - k) < 2 ^ (k + 1) * 2 ^ (52 - k) := Nat.mul_lt_mul_of_pos_right hhigh' (Nat.two_pow_pos _)
        _ = 2 ^ 53 := by rw [← Nat.pow_add]; congr 1; omega
  have hrank : rankOf n = (k + 1022) * 2 ^ 52 + n * 2 ^ (52 - k) := by
    have hunit : (-((k : Int) - 52)).toNat = 52 - k ∧ ((k : Int) - 52).toNat = 0 := by omega
    rw [hone, rankOfRatio_eq hn.ne', hscale, hunit.1, hunit.2, show Nat.pow 2 0 = 1 from rfl, Nat.mul_one]
    congr 1
    exact (congrArg (roundHalfEven · 1) (Nat.mul_one _).symm).trans (roundHalfEven_mul_self _ Nat.one_pos)
  rw [hrank, magnitude_normal hs, Nat.cast_mul, mul_assoc, Nat.cast_pow, Nat.cast_ofNat, ← zpow_natCast,
    ← zpow_add₀ two_ne_zero, show ((52 - k : Nat) : Int) + (((k + 1022 : Nat) : Int) - 1074) = 0 by omega, zpow_zero,
    mul_one]

theorem magnitude_rankOf_limit : magnitude (rankOf (2 ^ 53 : Nat)) = (2 ^ 53 : Nat) := by
  have hrank : rankOf (2 ^ 53 : Nat) = 1075 * 2 ^ 52 + 2 ^ 52 := by decide +kernel
  rw [hrank, magnitude_normal (by norm_num)]
  norm_num

/-- There is no other number for a whole number of this size, nor another whole number for such a number. -/
theorem eq_of_rankOf_eq {m n : Nat} (hn : n < 2 ^ 53) (h : rankOf m = rankOf n) : m = n := by
  by_cases hm : m < 2 ^ 53
  · have := magnitude_rankOf_natCast hm
    rw [h, magnitude_rankOf_natCast hn] at this
    exact_mod_cast this.symm
  · have hle : rankOf ((2 ^ 53 : Nat) : ℚ) ≤ rankOf m :=
      rankOf_mono (Nat.cast_nonneg _) (by exact_mod_cast Nat.not_lt.mp hm)
    rw [h, ← magnitude_le_iff, magnitude_rankOf_limit, magnitude_rankOf_natCast hn] at hle
    exact absurd hn (Nat.not_lt.mpr (by exact_mod_cast hle))

end Binary64

end GraphScript
