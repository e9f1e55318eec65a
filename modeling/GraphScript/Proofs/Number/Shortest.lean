/-
  GraphScript.Proofs.Number.Shortest — the shortest decimal of a number reads back as the number.

  A decimal has a value, its digits scaled to its point. The value of the shortest decimal of a
  number is rounded to that number, whichever digits and exponent it is written with.

  - `Binary64.ofDecimal_shortest`
-/
import Mathlib.Data.List.TakeWhile
import GraphScript.Proofs.Number.Rounding
import GraphScript.Proofs.Script.Literals

namespace GraphScript

/-! ## Digits -/

namespace Json

theorem natOfDigits_append (a b : List Char) :
    natOfDigits (a ++ b) = natOfDigits a * 10 ^ b.length + natOfDigits b := by
  have h (ds : List Char) (n : Nat) :
      ds.foldl (fun n d => 10 * n + (d.toNat - '0'.toNat)) n = Nat.ofDigitChars 10 ds n :=
    Nat.ofDigitChars_eq_foldl.symm
  simp only [natOfDigits, h, Nat.ofDigitChars_append]
  rw [Nat.ofDigitChars_eq_ofDigitChars_zero, Nat.mul_comm]

theorem natOfDigits_zeros (n : Nat) : natOfDigits (List.replicate n '0') = 0 :=
  Nat.ofDigitChars_eq_foldl.symm.trans (Nat.ofDigitChars_replicate_zero.trans (Nat.mul_zero _))

theorem natOfDigits_toDigits (n : Nat) : natOfDigits (Nat.toDigits 10 n) = n :=
  Nat.ofDigitChars_eq_foldl.symm.trans Nat.ofDigitChars_ten_toDigits

theorem natOfDigits_lt {ds : List Char} (h : ∀ c ∈ ds, c.isDigit = true) : natOfDigits ds < 10 ^ ds.length := by
  induction ds with
  | nil => decide
  | cons c ds ih =>
    have hc : natOfDigits [c] ≤ 9 := by
      have hd := h c (List.mem_cons_self ..)
      have hval : c.toNat ≤ 57 := (Char.isDigit_iff_toNat.mp hd).2
      show 10 * 0 + (c.toNat - 48) ≤ 9
      omega
    have hds := ih fun x hx => h x (List.mem_cons_of_mem _ hx)
    calc natOfDigits (c :: ds) = natOfDigits [c] * 10 ^ ds.length + natOfDigits ds := natOfDigits_append [c] ds
      _ < 9 * 10 ^ ds.length + 10 ^ ds.length := Nat.add_lt_add_of_le_of_lt (Nat.mul_le_mul_right _ hc) hds
      _ = 10 ^ (c :: ds).length := by rw [List.length_cons, Nat.pow_succ]; omega

/-- A number has no more digits than it is read from. -/
theorem length_toDigits_le {ds : List Char} (h : ∀ c ∈ ds, c.isDigit = true) (hne : ds ≠ []) :
    (Nat.toDigits 10 (natOfDigits ds)).length ≤ ds.length :=
  (Nat.length_toDigits_le_iff (by decide) (List.length_pos_iff.mpr hne)).mpr (natOfDigits_lt h)

end Json

/-- No leading zero, and nothing but digits. -/
def IsNumeral (ds : List Char) : Prop := (∀ c ∈ ds, c.isDigit = true) ∧ ∃ c rest, ds = c :: rest ∧ c ≠ '0'

theorem IsNumeral.ne_nil {ds : List Char} (h : IsNumeral ds) : ds ≠ [] := by
  obtain ⟨-, c, rest, rfl, -⟩ := h
  exact List.cons_ne_nil _ _

theorem IsNumeral.isDigit_drop {ds : List Char} (h : IsNumeral ds) (n : Nat) : ∀ c ∈ ds.drop n, c.isDigit = true :=
  fun c hc => h.1 c (List.mem_of_mem_drop hc)

theorem digitChar_ne_zero : ∀ n < 10, 0 < n → Nat.digitChar n ≠ '0' := by decide

theorem isNumeral_toDigits {n : Nat} (h : 0 < n) : IsNumeral (Nat.toDigits 10 n) := by
  refine ⟨fun c hc => isDigit_of_mem_toDigits hc, ?_⟩
  induction n using Nat.strong_induction_on with
  | _ n ih =>
    by_cases hn : n < 10
    · exact ⟨_, _, Nat.toDigits_of_lt_base hn, digitChar_ne_zero n hn h⟩
    · obtain ⟨c, rest, hc, hne⟩ := ih (n / 10) (Nat.div_lt_self h (by decide)) (by omega)
      rw [Nat.toDigits_of_base_le (by decide) (by omega), hc]
      exact ⟨c, _, rfl, hne⟩

/-! ## Decimals -/

namespace Decimal

open Json

def value (d : Decimal) : ℚ := natOfDigits d.digits * 10 ^ (d.point - d.digits.length)

/-- A numeral is its decimal's digits and zeros behind them. -/
theorem ofScaled_zeros (digits : Nat) (e : Int) :
    ∃ n, Nat.toDigits 10 digits = (ofScaled digits e).digits ++ List.replicate n '0' := by
  refine ⟨((Nat.toDigits 10 digits).reverse.takeWhile (· == '0')).length, ?_⟩
  have hzeros : (Nat.toDigits 10 digits).reverse.takeWhile (· == '0') =
      List.replicate ((Nat.toDigits 10 digits).reverse.takeWhile (· == '0')).length '0' :=
    List.eq_replicate_iff.mpr ⟨rfl, fun c hc => by simpa using List.mem_takeWhile_imp hc⟩
  rw [← List.reverse_inj, List.reverse_append, List.reverse_replicate, ← hzeros]
  simp [ofScaled]

theorem ofScaled_value (digits : Nat) (e : Int) : (ofScaled digits e).value = digits * 10 ^ e := by
  obtain ⟨n, hn⟩ := ofScaled_zeros digits e
  have hlen : (Nat.toDigits 10 digits).length = (ofScaled digits e).digits.length + n := by simp [hn]
  have hdigits : digits = natOfDigits (ofScaled digits e).digits * 10 ^ n := by
    conv_lhs => rw [← natOfDigits_toDigits digits, hn, natOfDigits_append, natOfDigits_zeros]
    simp
  have hpoint : (ofScaled digits e).point - (ofScaled digits e).digits.length = n + e := by
    rw [show (ofScaled digits e).point = (Nat.toDigits 10 digits).length + e from rfl, hlen]
    push_cast
    ring
  rw [value, hpoint, zpow_add₀ (by norm_num), ← mul_assoc, zpow_natCast]
  congr 1
  exact_mod_cast hdigits.symm

theorem ofScaled_isNumeral {digits : Nat} (h : 0 < digits) (e : Int) : IsNumeral (ofScaled digits e).digits := by
  obtain ⟨-, c, rest, hc, hne⟩ := isNumeral_toDigits h
  obtain ⟨n, hn⟩ := ofScaled_zeros digits e
  refine ⟨ofScaled_digits digits e, ?_⟩
  rw [hc] at hn
  cases hd : (ofScaled digits e).digits with
  | nil =>
    -- nothing but zeros, though the first digit is none
    rw [hd, List.nil_append] at hn
    exact absurd (List.eq_of_mem_replicate (hn ▸ List.mem_cons_self ..)) hne
  | cons first others =>
    rw [hd, List.cons_append, List.cons.injEq] at hn
    exact ⟨first, others, rfl, hn.1 ▸ hne⟩

end Decimal

/-! ## The shortest decimal -/

namespace Binary64

theorem ofRank_inj {negative : Bool} {a b : Nat} (h : ofRank negative a = ofRank negative b) (hb : b < ranks) :
    a = b := by
  rw [ofRank, ofRank, dif_pos hb] at h
  split at h
  · simpa using h
  · cases h

/-- The sign is no part of the rounding. -/
theorem ofDecimal_of_rank {digits rank : Nat} {e : Int} (h : ofDecimal false digits e = ofRank false rank)
    (hr : rank < ranks) (negative : Bool) : ofDecimal negative digits e = ofRank negative rank := by
  rw [ofDecimal_eq, ofRatio] at h ⊢
  rw [ofRank_inj h hr]

theorem onGrid?_readsBack {rank digits : Nat} {e : Int} (h : onGrid? rank e = some digits) :
    ofDecimal false digits e = ofRank false rank := by
  simp only [onGrid?] at h
  split at h
  · rename_i hlow hhigh
    obtain rfl := Option.some.inj h
    rw [roundHalfEven]
    split
    · exact of_decide_eq_true hlow
    · exact of_decide_eq_true hhigh
  · rename_i hlow _
    obtain rfl := Option.some.inj h
    exact of_decide_eq_true hlow
  · rename_i hhigh
    obtain rfl := Option.some.inj h
    exact of_decide_eq_true hhigh
  · cases h

theorem exact_readsBack (rank : Nat) : let places := (-exponent rank).toNat
    ofDecimal false ((ratio rank).1 * Nat.pow 5 places) (-(places : Int)) = ofRank false rank := by
  intro places
  have hden : (ratio rank).2 = Nat.pow 2 places := rfl
  have hten : Nat.pow 10 places = Nat.pow 5 places * Nat.pow 2 places := Nat.mul_pow 5 2 places
  have hzero : (-(places : Int)).toNat = 0 := by omega
  have hback : (-(-(places : Int))).toNat = places := by omega
  rw [ofDecimal_eq, ← ofRatio_ratio, ofRatio, ofRatio, hzero, hback]
  congr 1
  refine rankOfRatio_congr (ten_pow_pos _) (ratio_pos rank) ?_
  rw [hden, hten, show Nat.pow 10 0 = 1 from rfl, Nat.mul_one, Nat.mul_assoc]

/-- Whichever decimal is found, it is that of digits that read back. -/
theorem shortest_eq (rank : Nat) :
    ∃ digits e, shortest rank = .ofScaled digits e ∧ ofDecimal false digits e = ofRank false rank := by
  simp only [shortest]
  cases hf : (List.range 17).findSome? _ with
  | none => exact ⟨_, _, rfl, exact_readsBack rank⟩
  | some d =>
    obtain ⟨more, -, hd⟩ := List.exists_of_findSome?_eq_some hf
    obtain ⟨digits, hdigits, rfl⟩ := Option.map_eq_some_iff.mp hd
    exact ⟨digits, _, rfl, onGrid?_readsBack hdigits⟩

theorem shortest_eq_of_ne_zero {rank : Nat} (h : rank ≠ 0) (hr : rank < ranks) :
    ∃ digits e, 0 < digits ∧ shortest rank = .ofScaled digits e ∧ ofDecimal false digits e = ofRank false rank := by
  obtain ⟨digits, e, hd, hback⟩ := shortest_eq rank
  refine ⟨digits, e, Nat.pos_of_ne_zero fun hz => h ?_, hd, hback⟩
  rw [ofDecimal, if_pos (.inl hz)] at hback
  exact (ofRank_inj hback hr).symm

theorem shortest_isNumeral {rank : Nat} (h : rank ≠ 0) (hr : rank < ranks) : IsNumeral (shortest rank).digits := by
  obtain ⟨digits, e, hdigits, hd, -⟩ := shortest_eq_of_ne_zero h hr
  rw [hd]
  exact Decimal.ofScaled_isNumeral hdigits e

/-- What has the value of the shortest decimal of a number is read as that number. -/
theorem ofDecimal_shortest {rank digits : Nat} {e : Int} (hv : (digits * 10 ^ e : ℚ) = (shortest rank).value)
    (hr : rank < ranks) (negative : Bool) : ofDecimal negative digits e = .finite negative ⟨rank, hr⟩ := by
  obtain ⟨found, f, hd, hback⟩ := shortest_eq rank
  rw [hd, Decimal.ofScaled_value] at hv
  rw [ofDecimal_congr negative hv, ofDecimal_of_rank hback hr, ofRank, dif_pos hr]

end Binary64

end GraphScript
