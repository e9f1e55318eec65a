/-
  GraphScript.Proofs.Number.Canonical — one decimal for a value.

  Digits without a zero at either end and the place of their point are known from the value that they
  stand for, and the place of the point says between which powers of ten it lies. The shortest
  decimal of a number is such a decimal, and its value is rounded to the number: so the place of its
  point is known from the rank, and where the number is whole and small enough it is the number.

  - `Decimal.Canonical.eq_of_value`
  - `Binary64.lt_point_iff`: the place of the point.
  - `Binary64.shortest_natCast`: whole numbers below `2 ^ 53`.
-/
import GraphScript.Proofs.Number.Order
import GraphScript.Proofs.Number.Shortest

namespace GraphScript

open Json

/-! ## Numerals -/

theorem natOfDigits_cons (c : Char) (ds : List Char) :
    natOfDigits (c :: ds) = (c.toNat - 48) * 10 ^ ds.length + natOfDigits ds := by
  have h := natOfDigits_append [c] ds
  have hc : natOfDigits [c] = c.toNat - 48 := Nat.zero_add _
  rwa [hc] at h

theorem isDigit_toNat {c : Char} (h : c.isDigit = true) : 48 ≤ c.toNat ∧ c.toNat ≤ 57 := Char.isDigit_iff_toNat.mp h

theorem IsNumeral.le_natOfDigits {ds : List Char} (h : IsNumeral ds) : 10 ^ (ds.length - 1) ≤ natOfDigits ds := by
  obtain ⟨hds, c, rest, rfl, hc⟩ := h
  have hdigit := isDigit_toNat (hds c (List.mem_cons_self ..))
  have hne : c.toNat ≠ 48 := fun hz => hc (Char.toNat_inj.mp hz)
  rw [natOfDigits_cons, List.length_cons, Nat.add_sub_cancel]
  exact Nat.le_add_right_of_le (Nat.le_mul_of_pos_left _ (by omega))

/-- Digits of one length are known from their number. -/
theorem eq_of_natOfDigits {ds es : List Char} (hd : ∀ c ∈ ds, c.isDigit = true) (he : ∀ c ∈ es, c.isDigit = true)
    (hlen : ds.length = es.length) (h : natOfDigits ds = natOfDigits es) : ds = es := by
  induction ds generalizing es with
  | nil => exact (List.eq_nil_of_length_eq_zero hlen.symm).symm
  | cons c ds ih =>
    obtain ⟨d, es, rfl⟩ := List.exists_cons_of_length_pos (by rw [← hlen]; exact Nat.succ_pos _)
    obtain ⟨hc, hds⟩ := List.forall_mem_cons.mp hd
    obtain ⟨hd, hes⟩ := List.forall_mem_cons.mp he
    have hlen' : ds.length = es.length := Nat.succ.inj hlen
    have hlow : natOfDigits ds < 10 ^ es.length := hlen' ▸ natOfDigits_lt hds
    rw [natOfDigits_cons, natOfDigits_cons, hlen'] at h
    have hfirst : c.toNat - 48 = d.toNat - 48 := by
      have := congrArg (· / 10 ^ es.length) h
      rwa [Nat.mul_comm, Nat.mul_add_div (by positivity), Nat.div_eq_of_lt hlow, Nat.mul_comm,
        Nat.mul_add_div (by positivity), Nat.div_eq_of_lt (natOfDigits_lt hes)] at this
    rw [hfirst] at h
    have hcd : c = d := Char.toNat_inj.mp (by have := isDigit_toNat hc; have := isDigit_toNat hd; omega)
    rw [hcd, ih hds hes hlen' (Nat.add_left_cancel h)]

/-! ## Decimals -/

namespace Decimal

/-- No zero at either end. -/
structure Canonical (d : Decimal) : Prop where
  numeral : IsNumeral d.digits
  trimmed : d.digits.getLast? ≠ some '0'

theorem ofScaled_canonical {digits : Nat} (h : 0 < digits) (e : Int) : (ofScaled digits e).Canonical where
  numeral := ofScaled_isNumeral h e
  trimmed := by
    have hdrop : (ofScaled digits e).digits.reverse = (Nat.toDigits 10 digits).reverse.dropWhile (· == '0') :=
      List.reverse_reverse _
    rw [List.getLast?_eq_head?_reverse, hdrop]
    intro hz
    have := List.head?_dropWhile_not (· == '0') (Nat.toDigits 10 digits).reverse
    rw [hz] at this
    simp at this

variable {d d' : Decimal}

theorem Canonical.mod_ne_zero (h : d.Canonical) : natOfDigits d.digits % 10 ≠ 0 := by
  obtain ⟨init, c, hc⟩ := (List.eq_nil_or_concat' d.digits).resolve_left h.numeral.ne_nil
  have hdigit := isDigit_toNat (h.numeral.1 c (by rw [hc]; exact List.mem_append_right _ (List.mem_cons_self ..)))
  have hne : c.toNat ≠ 48 := fun hz => h.trimmed (by
    rw [hc, List.getLast?_concat, (Char.toNat_inj.mp hz : c = '0')])
  have hlast : natOfDigits [c] = c.toNat - 48 := Nat.zero_add _
  rw [hc, natOfDigits_append, hlast, List.length_singleton, Nat.pow_one]
  omega

/-- The point stands where the value lies between powers of ten. -/
theorem Canonical.value_bounds (h : d.Canonical) : (10 : ℚ) ^ (d.point - 1) ≤ d.value ∧ d.value < 10 ^ d.point := by
  have hlen : 0 < d.digits.length := List.length_pos_iff.mpr h.numeral.ne_nil
  have hlow : ((10 : ℚ) ^ (d.digits.length - 1 : Nat)) ≤ natOfDigits d.digits := by
    exact_mod_cast h.numeral.le_natOfDigits
  have hhigh : (natOfDigits d.digits : ℚ) < 10 ^ d.digits.length := by exact_mod_cast natOfDigits_lt h.numeral.1
  constructor
  · calc (10 : ℚ) ^ (d.point - 1) = 10 ^ (d.digits.length - 1 : Nat) * 10 ^ (d.point - d.digits.length) := by
          rw [← zpow_natCast, ← zpow_add₀ (by norm_num)]
          congr 1
          omega
      _ ≤ d.value := by rw [value]; gcongr
  · calc d.value < 10 ^ d.digits.length * 10 ^ (d.point - d.digits.length) := by rw [value]; gcongr
      _ = 10 ^ d.point := by rw [← zpow_natCast, ← zpow_add₀ (by norm_num)]; congr 1; ring

theorem Canonical.lt_point_iff (h : d.Canonical) (p : Int) : p < d.point ↔ (10 : ℚ) ^ p ≤ d.value := by
  constructor
  · intro hp
    exact (zpow_le_zpow_right₀ (by norm_num) (by omega)).trans h.value_bounds.1
  · intro hp
    exact (zpow_lt_zpow_iff_right₀ (by norm_num : (1 : ℚ) < 10)).mp (hp.trans_lt h.value_bounds.2)

theorem Canonical.value_pos (h : d.Canonical) : 0 < d.value := (zpow_pos (by norm_num) _).trans_le h.value_bounds.1

theorem Canonical.point_le_of_value (h : d.Canonical) (h' : d'.Canonical) (hv : d.value = d'.value) :
    d.point ≤ d'.point := by
  have := (h'.lt_point_iff (d.point - 1)).mpr (hv ▸ h.value_bounds.1)
  omega

/-- Of two decimals with one value neither has more digits: they would end in a zero. -/
theorem Canonical.length_le_of_value (h : d.Canonical) (hp : d.point = d'.point) (hv : d.value = d'.value) :
    d.digits.length ≤ d'.digits.length := by
  by_contra hlt
  obtain ⟨k, hk⟩ : ∃ k, d.digits.length = d'.digits.length + (k + 1) :=
    ⟨d.digits.length - d'.digits.length - 1, by omega⟩
  have hscaled : (natOfDigits d.digits : ℚ) = (natOfDigits d'.digits * 10 ^ (k + 1) : Nat) := by
    have hpos : (10 : ℚ) ^ (d.point - d.digits.length) ≠ 0 := zpow_ne_zero _ (by norm_num)
    have hsplit : (10 : ℚ) ^ (d.point - d'.digits.length) = 10 ^ (k + 1) * 10 ^ (d.point - d.digits.length) := by
      rw [← zpow_natCast, ← zpow_add₀ (by norm_num), hk]
      congr 1
      push_cast
      ring
    rw [value, value, ← hp, hsplit, ← mul_assoc] at hv
    have := mul_right_cancel₀ hpos hv
    push_cast
    exact this
  refine h.mod_ne_zero ?_
  rw [Nat.cast_injective hscaled, Nat.pow_succ, ← Nat.mul_assoc]
  exact Nat.mul_mod_left ..

theorem Canonical.eq_of_value (h : d.Canonical) (h' : d'.Canonical) (hv : d.value = d'.value) : d = d' := by
  have hpoint : d.point = d'.point := Int.le_antisymm (h.point_le_of_value h' hv) (h'.point_le_of_value h hv.symm)
  have hlen : d.digits.length = d'.digits.length :=
    Nat.le_antisymm (h.length_le_of_value hpoint hv) (h'.length_le_of_value hpoint.symm hv.symm)
  have hdigits : natOfDigits d.digits = natOfDigits d'.digits := by
    rw [value, value, hpoint, hlen] at hv
    exact_mod_cast mul_right_cancel₀ (zpow_ne_zero _ (by norm_num)) hv
  have hds := eq_of_natOfDigits h.numeral.1 h'.numeral.1 hlen hdigits
  cases d
  cases d'
  simp_all

end Decimal

/-! ## The shortest decimal -/

namespace Binary64

theorem shortest_canonical {rank : Nat} (h : rank ≠ 0) (hr : rank < ranks) : (shortest rank).Canonical := by
  obtain ⟨digits, e, hdigits, hd, -⟩ := shortest_eq_of_ne_zero h hr
  rw [hd]
  exact Decimal.ofScaled_canonical hdigits e

theorem ofDecimal_eq_ofRank (negative : Bool) (digits : Nat) (e : Int) :
    ofDecimal negative digits e = ofRank negative (rankOf (digits * 10 ^ e)) := by
  rw [ofDecimal_eq, ofRatio, ← rankOf_div _ (ten_pow_pos _), decimal_value]

theorem rankOf_shortest {rank : Nat} (hr : rank < ranks) : rankOf (shortest rank).value = rank := by
  obtain ⟨digits, e, hd, hback⟩ := shortest_eq rank
  rw [ofDecimal_eq_ofRank] at hback
  rw [hd, Decimal.ofScaled_value]
  exact ofRank_inj hback hr

/-- Where a power of ten is the shortest decimal of its nearest number, the points of the shortest decimals lie
    beyond it from that number on. -/
theorem lt_point_iff {rank r : Nat} {p : Int} (h : rank ≠ 0) (hr : rank < ranks) (hp : rankOf (10 ^ p) = r)
    (hd : (shortest r).value = 10 ^ p) : p < (shortest rank).point ↔ r ≤ rank := by
  rw [(shortest_canonical h hr).lt_point_iff]
  constructor
  · intro hle
    have := rankOf_mono (zpow_nonneg (by norm_num) p) hle
    rwa [hp, rankOf_shortest hr] at this
  · intro hle
    by_contra hlt
    have hge := rankOf_mono (shortest_canonical h hr).value_pos.le (not_le.mp hlt).le
    rw [hp, rankOf_shortest hr] at hge
    -- the number is that of the power of ten, whose decimal is no smaller
    obtain rfl : rank = r := Nat.le_antisymm hge hle
    exact hlt hd.ge

/-! ## Whole numbers -/

theorem toDigits_bounds {n : Nat} (h : 0 < n) : 10 ^ ((Nat.toDigits 10 n).length - 1) ≤ n ∧
    n < 10 ^ ((Nat.toDigits 10 n).length - 1 + 1) := by
  have hnumeral := isNumeral_toDigits h
  have hlen : 0 < (Nat.toDigits 10 n).length := List.length_pos_iff.mpr hnumeral.ne_nil
  have hlow := hnumeral.le_natOfDigits
  have hhigh := natOfDigits_lt hnumeral.1
  rw [natOfDigits_toDigits] at hlow hhigh
  rw [Nat.sub_add_cancel hlen]
  exact ⟨hlow, hhigh⟩

theorem decade_bounds {num den : Nat} (hn : 0 < num) (hd : 0 < den) :
    (10 : ℚ) ^ decade num den ≤ num / den ∧ (num / den : ℚ) < 10 ^ (decade num den + 1) := by
  have hnum : 0 < (Nat.toDigits 10 num).length := List.length_pos_iff.mpr (isNumeral_toDigits hn).ne_nil
  have hden : 0 < (Nat.toDigits 10 den).length := List.length_pos_iff.mpr (isNumeral_toDigits hd).ne_nil
  exact_mod_cast scale_bounds (b := 10) (by decide) hd (toDigits_bounds hn) (toDigits_bounds hd)
    (e := (Nat.toDigits 10 num).length - (Nat.toDigits 10 den).length) (p := decade num den) (by omega) rfl

theorem onGrid?_isSome {rank n : Nat} {e : Int}
    (hfloor : (ratio rank).1 * Nat.pow 10 (-e).toNat / ((ratio rank).2 * Nat.pow 10 e.toNat) = n)
    (h : ofDecimal false n e = ofRank false rank) : (onGrid? rank e).isSome = true := by
  have hback : decide (ofDecimal false n e = ofRank false rank) = true := decide_eq_true h
  unfold onGrid?
  dsimp only
  rw [hfloor, hback]
  generalize decide (ofDecimal false (n + 1) e = ofRank false rank) = above
  cases above <;> rfl

/-- The exact value is on the grid that it is a multiple on. -/
theorem onGrid?_natCast {rank n : Nat} (hv : magnitude rank = n) : (onGrid? rank 0).isSome = true := by
  have hden : ((ratio rank).2 : ℚ) ≠ 0 := by exact_mod_cast (ratio_pos rank).ne'
  have hnum : (ratio rank).1 = n * (ratio rank).2 := by
    rw [magnitude, div_eq_iff hden] at hv
    exact_mod_cast hv
  refine onGrid?_isSome (n := n) ?_ ?_
  · rw [hnum, Int.neg_zero, Int.toNat_zero, show Nat.pow 10 0 = 1 from rfl, Nat.mul_one, Nat.mul_one,
      Nat.mul_div_cancel n (ratio_pos rank)]
  · rw [ofDecimal_eq_ofRank, zpow_zero, mul_one, ← hv, rankOf_magnitude]

theorem exists_findSome?_range {α : Type} {f : Nat → Option α} {k n : Nat} (hk : k < n) (h : (f k).isSome = true) :
    ∃ m ≤ k, ∃ a, f m = some a ∧ (List.range n).findSome? f = some a := by
  obtain ⟨rest, hn⟩ : ∃ rest, n = k + 1 + rest := ⟨n - (k + 1), by omega⟩
  have hsome : ((List.range (k + 1)).findSome? f).isSome = true :=
    List.findSome?_isSome_iff.mpr ⟨k, List.mem_range.mpr (Nat.lt_succ_self k), h⟩
  obtain ⟨a, ha⟩ := Option.isSome_iff_exists.mp hsome
  obtain ⟨m, hm, hfm⟩ := List.exists_of_findSome?_eq_some ha
  refine ⟨m, Nat.lt_succ_iff.mp (List.mem_range.mp hm), a, hfm, ?_⟩
  rw [hn, List.range_add, List.findSome?_append, ha, Option.some_or]

/-- The grids down to the ones are tried before any finer one, and a whole number that is read back is the number. -/
theorem shortest_natCast {rank n : Nat} (hr : rank < ranks) (hn : 0 < n) (hlimit : n < 2 ^ 53)
    (hv : magnitude rank = n) : (shortest rank).value = n := by
  have hrank : rankOf n = rank := by rw [← hv, rankOf_magnitude]
  have hzero : rank ≠ 0 := by
    rintro rfl
    rw [magnitude_zero] at hv
    exact hn.ne (by exact_mod_cast hv)
  obtain ⟨hlow, hhigh⟩ := decade_bounds (Nat.pos_of_ne_zero (ratio_ne_zero hzero)) (ratio_pos rank)
  rw [show ((ratio rank).1 / (ratio rank).2 : ℚ) = n from hv] at hlow hhigh
  have hfirst : 0 ≤ decade (ratio rank).1 (ratio rank).2 ∧ decade (ratio rank).1 (ratio rank).2 < 16 := by
    constructor
    · have hone : (10 : ℚ) ^ (0 : Int) ≤ n := by exact_mod_cast hn
      have := (zpow_lt_zpow_iff_right₀ (by norm_num : (1 : ℚ) < 10)).mp (hone.trans_lt hhigh)
      omega
    · have hten : (n : ℚ) < 10 ^ (16 : Int) := by exact_mod_cast hlimit.trans (by norm_num)
      exact (zpow_lt_zpow_iff_right₀ (by norm_num : (1 : ℚ) < 10)).mp (hlow.trans_lt hten)
  obtain ⟨k, hk⟩ := Int.eq_ofNat_of_zero_le hfirst.1
  have hgrid : ((onGrid? rank ((k : Int) - k)).map (Decimal.ofScaled · ((k : Int) - k))).isSome = true := by
    rw [Int.sub_self, Option.isSome_map]
    exact onGrid?_natCast hv
  obtain ⟨m, hm, d, hd, hfind⟩ := exists_findSome?_range
    (f := fun more => (onGrid? rank ((k : Int) - more)).map (Decimal.ofScaled · ((k : Int) - more)))
    (show k < 17 by omega) hgrid
  obtain ⟨digits, hdigits, rfl⟩ := Option.map_eq_some_iff.mp hd
  have hshortest : shortest rank = .ofScaled digits ((k : Int) - m) := by
    rw [shortest, hk]
    exact congrArg (Option.getD · (exact rank)) hfind
  have hwhole : (digits * 10 ^ ((k : Int) - m) : ℚ) = (digits * 10 ^ (k - m) : Nat) := by
    rw [← Nat.cast_sub hm, zpow_natCast]
    push_cast
    rfl
  have hback := onGrid?_readsBack hdigits
  rw [ofDecimal_eq_ofRank, hwhole, ← hrank] at hback
  rw [hshortest, Decimal.ofScaled_value, hwhole, eq_of_rankOf_eq hlimit (ofRank_inj hback (hrank ▸ hr))]

end Binary64

end GraphScript
