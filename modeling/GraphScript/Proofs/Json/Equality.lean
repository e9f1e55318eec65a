/-
  GraphScript.Proofs.Json.Equality — what the equality of values says of them.

  Equal values are equally truthy. Only a text is equal to a text, and only the empty list to the
  empty list.
-/
import GraphScript.Json.Basic

namespace GraphScript.Json

theorem toNat?_eq_zero {rank : Nat} : Binary64.toNat? rank = some 0 ↔ rank = 0 := by
  constructor
  · intro h
    simp only [Binary64.toNat?] at h
    split at h
    · rename_i hm
      have hdiv := Nat.div_add_mod (Binary64.ratio rank).1 (Binary64.ratio rank).2
      rw [hm, Option.some.inj h, Nat.mul_zero, Nat.zero_add] at hdiv
      have hs : Binary64.significand rank = 0 :=
        (Nat.mul_eq_zero.mp hdiv.symm).resolve_right (Nat.ne_of_gt (Nat.two_pow_pos _))
      have hpos : 0 < Nat.pow 2 52 := Nat.two_pow_pos 52
      unfold Binary64.significand at hs
      split at hs
      · exact hs
      · omega
    · cases h
  · intro h
    have hs : Binary64.significand rank = 0 := by
      subst h
      rfl
    simp only [Binary64.toNat?, Binary64.ratio, hs, Nat.zero_mul, Nat.zero_mod, Nat.zero_div, if_true]

theorem toInt?_eq_zero {x : Binary64} : x.toInt? = some 0 ↔ x.isZero = true := by
  cases x with
  | finite negative rank =>
    have hr : Binary64.toNat? rank.val = some 0 ↔ rank.val = 0 := toNat?_eq_zero
    simp only [Binary64.toInt?, Binary64.isZero, Option.map_eq_some_iff, beq_iff_eq, ← hr]
    constructor
    · intro w
      obtain ⟨n, hn, h⟩ := w
      have h0 : n = 0 := by split at h <;> omega
      rw [hn, h0]
    · intro h
      exact ⟨0, h, by split <;> rfl⟩
  | infinity _ | nan => simp [Binary64.toInt?, Binary64.isZero]

theorem truthy_of_amount {v : Json} {m : Amount} (h : v.amount? = some m) : v.truthy = true ↔ m ≠ .whole 0 := by
  cases v with
  | bool b =>
    obtain rfl := Option.some.inj h
    cases b <;> simp [truthy]
  | int n =>
    obtain rfl := Option.some.inj h
    simp [truthy]
  | float x =>
    obtain rfl := Option.some.inj h
    have hx := toInt?_eq_zero (x := x)
    cases hi : x.toInt? with
    | none =>
      have hz : x.isZero = false := by
        rw [Bool.eq_false_iff, ne_eq, ← hx, hi]
        exact nofun
      simp [truthy, hz]
    | some n => simp [truthy, ← Bool.not_eq_true, ← hx, hi]
  | null | str _ | arr _ | obj _ => cases h

/-- Equal values are equally truthy. -/
theorem truthy_of_alike {v w : Json} (h : alike v w = true) : v.truthy = true ↔ w.truthy = true := by
  unfold alike at h
  split at h
  · rfl
  · rw [beq_iff_eq] at h
    rw [h]
  · rename_i xs ys
    cases xs <;> cases ys <;> simp [alikeMembers, truthy] at h ⊢
  · rename_i fs gs
    rw [Bool.and_eq_true, beq_iff_eq] at h
    cases fs <;> cases gs <;> simp [truthy] at h ⊢
  · split at h
    · rename_i m n hm hn
      rw [beq_iff_eq] at h
      rw [truthy_of_amount hm, truthy_of_amount hn, h]
    · cases h

theorem truthy_of_equals {v d : Json} (h : v.equals d = true) (hd : d.truthy = false) : v.truthy = false := by
  rw [equals, Bool.and_eq_true] at h
  have := truthy_of_alike h.2
  simpa [hd] using this

/-- Numbers of one value are equal, whatever their form. -/
theorem equals_int {v : Json} {n : Int} : v.equals (.int n) = true ↔ v.amount? = some (.whole n) := by
  cases v with
  | float x =>
    cases x <;> simp [equals, alike, amount?, isNaN, Binary64.toInt?]
  | _ => simp [equals, alike, amount?, isNaN]

theorem eq_of_equals_str {v : Json} {s : String} (h : v.equals (.str s) = true) : v = .str s := by
  rw [equals, Bool.and_eq_true] at h
  cases v with
  | str t => exact congrArg Json.str (beq_iff_eq.mp h.2)
  | _ => simp [alike, amount?] at h

theorem eq_of_equals_nil {v : Json} (h : v.equals (.arr []) = true) : v = .arr [] := by
  rw [equals, Bool.and_eq_true] at h
  cases v with
  | arr members =>
    cases members with
    | nil => rfl
    | cons x xs => simp [alike, alikeMembers] at h
  | _ => simp [alike, amount?] at h

end GraphScript.Json
