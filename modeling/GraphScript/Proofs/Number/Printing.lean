/-
  GraphScript.Proofs.Number.Printing — the text of a finite number in a script.

  A script writes a number down by its shortest decimal. The same text comes out of the text that a
  message shows, by three ways: a whole number below `2 ^ 53` is printed as an integer, the digits of
  a number between a millionth and `10 ^ 21` are laid out anew without exponent, and of any other
  number the exponent is printed anew (`respelled?`). That they meet is due to the places where they
  change over: up to `2 ^ 53` the shortest digits of a whole number are its own, and what a message
  shows has an exponent wherever the script has one.

  - `number_text_canonical`
-/
import GraphScript.Proofs.Json.Numbers

namespace GraphScript

open Json

/-! ## Values -/

namespace Binary64

/-- The value of a finite number. -/
def value : Binary64 → ℚ
  | .finite negative rank => if negative then -magnitude rank else magnitude rank
  | _ => 0

theorem abs_value (negative : Bool) (rank : Fin ranks) : |(finite negative rank).value| = magnitude rank := by
  rw [value.eq_1]
  split
  · rw [abs_neg, abs_of_nonneg (magnitude_nonneg _)]
  · exact abs_of_nonneg (magnitude_nonneg _)

theorem value_ofDecimal {digits : Nat} {e : Int} (h : rankOf (digits * 10 ^ e) < ranks) :
    (ofDecimal false digits e).value = magnitude (rankOf (digits * 10 ^ e)) := by
  rw [ofDecimal_eq_ofRank, ofRank, dif_pos h]
  rfl

theorem toNat?_eq_some {rank n : Nat} : toNat? rank = some n ↔ magnitude rank = n := by
  have hden : ((ratio rank).2 : ℚ) ≠ 0 := by exact_mod_cast (ratio_pos rank).ne'
  have hvalue : magnitude rank = n ↔ (ratio rank).1 = n * (ratio rank).2 := by
    rw [magnitude, div_eq_iff hden]
    exact_mod_cast Iff.rfl
  rw [hvalue, toNat?]
  dsimp only
  constructor
  · intro h
    split at h
    · rename_i hmod
      obtain rfl := Option.some.inj h
      exact (Nat.div_mul_cancel (Nat.dvd_of_mod_eq_zero hmod)).symm
    · cases h
  · intro h
    rw [h, Nat.mul_mod_left, if_pos rfl, Nat.mul_div_cancel _ (ratio_pos rank)]

/-! ## Where the exponents begin -/

theorem rankOf_millionth : rankOf (10 ^ (-6 : Int)) = rankOfRatio 1 (10 ^ 6) := by
  rw [← rankOf_div 1 (by decide)]
  congr 1
  norm_num

theorem rankOf_limit : rankOf (10 ^ (21 : Int)) = rankOfRatio (10 ^ 21) 1 := by
  rw [← rankOf_div (10 ^ 21) one_pos]
  congr 1
  norm_num

theorem shortest_millionth : (shortest (rankOfRatio 1 (10 ^ 6))).value = 10 ^ (-6 : Int) := by
  have hd : shortest (rankOfRatio 1 (10 ^ 6)) = .ofScaled 1 (-6) := by decide +kernel
  rw [hd, Decimal.ofScaled_value, Nat.cast_one, one_mul]

theorem shortest_limit : (shortest (rankOfRatio (10 ^ 21) 1)).value = 10 ^ (21 : Int) := by
  have hd : shortest (rankOfRatio (10 ^ 21) 1) = .ofScaled 1 21 := by decide +kernel
  rw [hd, Decimal.ofScaled_value, Nat.cast_one, one_mul]

theorem magnitude_limit : magnitude (rankOfRatio (10 ^ 21) 1) = 10 ^ 21 := by
  have hn : toNat? (rankOfRatio (10 ^ 21) 1) = some (10 ^ 21) := by decide +kernel
  rw [toNat?_eq_some.mp hn]
  norm_num

/-- A number from the one nearest to a millionth up to `10 ^ 21` has its point near its digits. -/
theorem positional_iff {rank : Nat} (h : rank ≠ 0) (hr : rank < ranks) :
    Layout.script.least < (shortest rank).point ∧ (shortest rank).point ≤ Layout.script.limit ↔
      (ofDecimal false 1 (-6)).value ≤ magnitude rank ∧ magnitude rank < 10 ^ 21 := by
  have hlow := lt_point_iff h hr rankOf_millionth shortest_millionth
  have hhigh := lt_point_iff h hr rankOf_limit shortest_limit
  have hone : rankOf ((1 : Nat) * 10 ^ (-6 : Int)) = rankOfRatio 1 (10 ^ 6) := by
    rw [Nat.cast_one, one_mul, rankOf_millionth]
  have hfinite : rankOfRatio 1 (10 ^ 6) < ranks := by decide +kernel
  rw [value_ofDecimal (hone ▸ hfinite), hone, ← magnitude_limit, magnitude_le_iff, magnitude_lt_iff, ← hlow,
    ← Nat.not_le, ← hhigh, Int.not_lt]
  rfl

end Binary64

/-! ## Canonical texts -/

/-- One zero or no leading one, none at the end behind a point, and a power without padding behind one digit. -/
structure Numeral.Canonical (n : Numeral) : Prop where
  whole : IsWhole n.whole
  decimals : ∀ c ∈ n.decimals, c.isDigit = true
  trimmed : n.decimals.getLast? ≠ some '0'
  power : ∀ p ∈ n.power, IsNumeral p.2 ∧ IsNumeral n.whole ∧ n.whole.length = 1

namespace Layout

theorem script_rounds : script.Rounds := .inl rfl

theorem around_trimmed {d : Decimal} (hd : d.Canonical) : (script.around d).2.getLast? ≠ some '0' := by
  unfold around
  split
  · rw [List.getLast?_append_of_ne_nil _ hd.numeral.ne_nil]
    exact hd.trimmed
  · split
    · exact fun h => nomatch h
    · rw [List.getLast?_drop]
      split
      · exact fun h => nomatch h
      · exact hd.trimmed

theorem raised_script {d : Decimal} (h : d.point ≠ 1) :
    script.raised d = (decide (d.point - 1 < 0), Nat.toDigits 10 (d.point - 1).natAbs) ∧
      IsNumeral (Nat.toDigits 10 (d.point - 1).natAbs) := by
  have hnumeral : IsNumeral (Nat.toDigits 10 (d.point - 1).natAbs) := isNumeral_toDigits (by omega)
  have hlen : 0 < (Nat.toDigits 10 (d.point - 1).natAbs).length := List.length_pos_iff.mpr hnumeral.ne_nil
  have hpad : script.exponentDigits - (Nat.toDigits 10 (d.point - 1).natAbs).length = 0 := Nat.sub_eq_zero_of_le hlen
  refine ⟨?_, hnumeral⟩
  rw [raised, hpad]
  rfl

theorem numeral_script_canonical {d : Decimal} (hd : d.Canonical) (negative : Bool) :
    (script.numeral negative d).Canonical := by
  unfold numeral
  split
  · obtain ⟨hwhole, hdecimals, -⟩ := around_spec script_rounds hd.numeral
    exact ⟨hwhole, hdecimals, around_trimmed hd, fun _ h => nomatch h⟩
  · rename_i hout
    have hpoint : d.point ≠ 1 := fun h => hout (by rw [h]; decide)
    have hlen : 0 < d.digits.length := List.length_pos_iff.mpr hd.numeral.ne_nil
    obtain ⟨hraised, hpower⟩ := raised_script hpoint
    refine ⟨isWhole_take hd.numeral one_pos, hd.numeral.isDigit_drop 1, ?_, fun p hp => ?_⟩
    · dsimp only
      rw [List.getLast?_drop]
      split
      · exact fun h => nomatch h
      · exact hd.trimmed
    · rw [← Option.mem_some.mp hp, hraised]
      obtain ⟨hdigits, c, rest, hc, hne⟩ := hd.numeral
      refine ⟨hpower, ⟨fun x hx => hdigits x (List.mem_of_mem_take hx), c, rest.take 0, ?_, hne⟩, ?_⟩
      · dsimp only
        rw [hc]
        rfl
      · exact List.length_take_of_le hlen

theorem finite_script_canonical (negative : Bool) (rank : Fin Binary64.ranks) :
    (script.finite negative rank).Canonical := by
  unfold finite
  split
  · exact ⟨.inl rfl, (fun _ h => nomatch h), (fun h => nomatch h), fun _ h => nomatch h⟩
  · rename_i hz
    exact numeral_script_canonical (Binary64.shortest_canonical hz rank.isLt) negative

theorem finite_script_power (negative : Bool) (rank : Fin Binary64.ranks) :
    (script.finite negative rank).power.isSome = true ↔ rank.val ≠ 0 ∧
      (Binary64.magnitude rank < (Binary64.ofDecimal false 1 (-6)).value ∨ 10 ^ 21 ≤ Binary64.magnitude rank) := by
  unfold finite
  split
  · rename_i hz
    simp [hz]
  · rename_i hz
    have hout : (Binary64.magnitude rank < (Binary64.ofDecimal false 1 (-6)).value ∨
        10 ^ 21 ≤ Binary64.magnitude rank) ↔ ¬ (script.least < (Binary64.shortest rank).point ∧
          (Binary64.shortest rank).point ≤ script.limit) := by
      rw [Binary64.positional_iff hz rank.isLt, not_and_or, not_le, not_lt]
    rw [hout, numeral]
    split <;> rename_i h <;> simp [hz, h]

/-- The sign of a number that is not zero is written. -/
theorem finite_negative {l : Layout} {negative : Bool} {rank : Nat} (h : rank ≠ 0) :
    (l.finite negative rank).negative = negative := by
  rw [finite, if_neg h, numeral_negative]

/-- Finite numbers with one text have one value, and but for the zeros they are one number. -/
theorem script_inj {m n : Bool} {a b : Fin Binary64.ranks}
    (h : script.text (.finite m a) = script.text (.finite n b)) :
    Binary64.finite m a = .finite n b ∨ a.val = 0 ∧ b.val = 0 := by
  rw [text_finite script_rounds, text_finite script_rounds] at h
  have hparts := Numeral.text_inj (finite_legible script_rounds m a) (finite_legible script_rounds n b) h
  have hvalue := congrArg Numeral.unsigned hparts
  rw [finite_unsigned script_rounds, finite_unsigned script_rounds] at hvalue
  have hpos {r : Fin Binary64.ranks} (hr : r.val ≠ 0) : (Binary64.shortest r).value ≠ 0 :=
    (Binary64.shortest_canonical hr r.isLt).value_pos.ne'
  by_cases ha : a.val = 0 <;> by_cases hb : b.val = 0
  · exact .inr ⟨ha, hb⟩
  · rw [if_pos ha, if_neg hb] at hvalue
    exact absurd hvalue.symm (hpos hb)
  · rw [if_neg ha, if_pos hb] at hvalue
    exact absurd hvalue (hpos ha)
  · rw [if_neg ha, if_neg hb] at hvalue
    have hrank := congrArg Binary64.rankOf hvalue
    rw [Binary64.rankOf_shortest a.isLt, Binary64.rankOf_shortest b.isLt] at hrank
    have hsign := congrArg Numeral.negative hparts
    rw [finite_negative ha, finite_negative hb] at hsign
    rw [hsign, Fin.ext hrank]
    exact .inl rfl

end Layout

/-! ## Whole numbers -/

namespace Numeral

/-- The parts of the text of an integer. -/
def ofInt (n : Int) : Numeral := ⟨n < 0, Nat.toDigits 10 n.natAbs, [], none⟩

theorem text_ofInt (n : Int) : (ofInt n).text = toString n := by
  rw [← String.toList_inj, toList_int, text, String.toList_append, String.toList_ofList]
  simp [ofInt, mantissa, powerText]

theorem ofInt_legible (n : Int) : (ofInt n).Legible := by
  refine ⟨(isWhole_toDigits n.natAbs).ne_nil, fun c hc => ?_, fun _ h => nomatch h⟩
  rw [digits, ofInt, List.append_nil] at hc
  exact isDigit_of_mem_toDigits hc

theorem ofInt_unsigned (n : Int) : (ofInt n).unsigned = n.natAbs := by
  simp [unsigned, digits, scale, exponent, ofInt, natOfDigits_toDigits]

end Numeral

namespace Binary64

theorem toInt?_eq_some {negative : Bool} {rank : Fin ranks} {n : Int} (h : toInt? (.finite negative rank) = some n) :
    magnitude rank = n.natAbs ∧ n = if negative then -(n.natAbs : Int) else n.natAbs := by
  obtain ⟨m, hm, hn⟩ := Option.map_eq_some_iff.mp h
  have habs : n.natAbs = m := by
    rw [← hn]
    cases negative <;> simp
  rw [habs]
  exact ⟨toNat?_eq_some.mp hm, hn.symm⟩

/-- The digits of a whole number are those of its shortest decimal where that has its value. -/
theorem shortest_eq_ofScaled {rank n : Nat} (h : rank ≠ 0) (hr : rank < ranks) (hv : (shortest rank).value = n) :
    shortest rank = .ofScaled n 0 := by
  have hn : 0 < n := by exact_mod_cast hv ▸ (shortest_canonical h hr).value_pos
  refine (shortest_canonical h hr).eq_of_value (Decimal.ofScaled_canonical hn 0) ?_
  rw [hv, Decimal.ofScaled_value, zpow_zero, mul_one]

end Binary64

namespace Layout

/-- An integer of at most twenty-one digits is laid out digit for digit. -/
theorem decimal_ofScaled {n : Nat} (h : n < 10 ^ 21) :
    (script.decimal (.ofScaled n 0)).toList = Nat.toDigits 10 n := by
  obtain ⟨k, hk⟩ := Decimal.ofScaled_zeros n 0
  have hlen : (Nat.toDigits 10 n).length ≤ 21 := (Nat.length_toDigits_le_iff (by decide) (by decide)).mpr h
  have hpos : 0 < (Nat.toDigits 10 n).length := Nat.length_toDigits_pos
  have hpoint : (Decimal.ofScaled n 0).point = (Nat.toDigits 10 n).length := Int.add_zero _
  have hdigits : (Nat.toDigits 10 n).length = (Decimal.ofScaled n 0).digits.length + k := by simp [hk]
  have hin : script.least < (Decimal.ofScaled n 0).point ∧ (Decimal.ofScaled n 0).point ≤ script.limit := by
    rw [hpoint]
    exact ⟨by simp only [script]; omega, by simp only [script]; omega⟩
  have hcount : ((Decimal.ofScaled n 0).point - (Decimal.ofScaled n 0).digits.length).toNat = k := by omega
  rw [decimal, if_pos hin, positional, if_neg (by omega), if_pos (by omega), hcount,
    show script.whole = "" from rfl, String.append_empty, String.toList_append, String.toList_ofList, zeros,
    String.toList_ofList, ← hk]

/-- A whole number is printed as an integer where its shortest digits are its own and no exponent is written. -/
theorem text_eq_toString_iff {negative : Bool} {rank : Fin Binary64.ranks} {n : Int}
    (h : Binary64.toInt? (.finite negative rank) = some n) :
    script.text (.finite negative rank) = toString n ↔
      n.natAbs < 10 ^ 21 ∧ (n = 0 ∨ (Binary64.shortest rank).value = n.natAbs) := by
  obtain ⟨hv, hn⟩ := Binary64.toInt?_eq_some h
  have hzero : rank.val = 0 ↔ n = 0 := by
    rw [← Binary64.magnitude_inj, hv, Binary64.magnitude_zero, Nat.cast_eq_zero, Int.natAbs_eq_zero]
  constructor
  · intro ht
    rw [text_finite script_rounds, ← Numeral.text_ofInt] at ht
    have hparts := Numeral.text_inj (finite_legible script_rounds negative rank) (Numeral.ofInt_legible n) ht
    by_cases hz : n = 0
    · rw [hz]
      exact ⟨by decide, .inl rfl⟩
    · have hpower := finite_script_power negative rank
      have hvalue := congrArg Numeral.unsigned hparts
      rw [finite_unsigned script_rounds, if_neg (mt hzero.mp hz), Numeral.ofInt_unsigned] at hvalue
      rw [hparts] at hpower
      refine ⟨?_, .inr hvalue⟩
      by_contra hlarge
      refine Bool.false_ne_true (hpower.mpr ⟨mt hzero.mp hz, .inr ?_⟩)
      rw [hv]
      exact_mod_cast Nat.not_lt.mp hlarge
  · rintro ⟨hlimit, hshort⟩
    rw [text.eq_1]
    by_cases hz : n = 0
    · rw [if_pos (hzero.mpr hz), hz]
      cases negative <;> rfl
    · have hr := mt hzero.mp hz
      rw [if_neg hr, Binary64.shortest_eq_ofScaled hr rank.isLt (hshort.resolve_left hz), ← String.toList_inj,
        String.toList_append, decimal_ofScaled hlimit, toList_int]
      congr 3
      cases negative <;> simp only [Bool.false_eq_true, if_false, if_true] at hn <;> simp <;> omega

theorem text_of_small {negative : Bool} {rank : Fin Binary64.ranks} {n : Int}
    (h : Binary64.toInt? (.finite negative rank) = some n) (hlimit : n.natAbs < 2 ^ 53) :
    script.text (.finite negative rank) = toString n := by
  refine (text_eq_toString_iff h).mpr ⟨hlimit.trans (by decide), ?_⟩
  by_cases hz : n = 0
  · exact .inl hz
  · exact .inr (Binary64.shortest_natCast rank.isLt (Int.natAbs_pos.mpr hz) hlimit (Binary64.toInt?_eq_some h).1)

end Layout

/-! ## From the text of a message -/

/-- The text in a script, from the text in a message where the number is no small integer. -/
def respelled? (x : Binary64) : Option String :=
  match x.toInt?.filter (·.natAbs < 2 ^ 53) with
  | some n => some (toString n)
  | none => do
    let shown ← Numeral.read? (Layout.display.text x)
    if (Binary64.ofDecimal false 1 (-6)).value ≤ |x.value| ∧ |x.value| < 10 ^ 21 then
      some (Layout.sign shown.negative ++ Layout.script.positional (.ofScaled (natOfDigits shown.digits) shown.scale))
    else do
      let _ ← shown.power
      some { shown with power := some (!(0 < shown.exponent), Nat.toDigits 10 shown.exponent.natAbs) }.text

namespace Layout

theorem display_rounds : display.Rounds := .inr rfl

theorem read?_display (negative : Bool) (rank : Fin Binary64.ranks) :
    Numeral.read? (display.text (.finite negative rank)) = some (display.finite negative rank) := by
  rw [text_finite display_rounds, Numeral.read?_text (finite_legible display_rounds negative rank)]

/-- The digits of a shown number, without zeros at their end, are those of its shortest decimal. -/
theorem ofScaled_display {negative : Bool} {rank : Fin Binary64.ranks} (h : rank.val ≠ 0) :
    .ofScaled (natOfDigits (display.finite negative rank).digits) (display.finite negative rank).scale =
      Binary64.shortest rank := by
  have hcanonical := Binary64.shortest_canonical h rank.isLt
  have hvalue := finite_unsigned display_rounds negative rank
  rw [if_neg h] at hvalue
  have hdigits : 0 < natOfDigits (display.finite negative rank).digits := by
    refine Nat.pos_of_ne_zero fun hz => hcanonical.value_pos.ne ?_
    rw [← hvalue, Numeral.unsigned, hz, Nat.cast_zero, zero_mul]
  refine (Decimal.ofScaled_canonical hdigits _).eq_of_value hcanonical ?_
  rw [Decimal.ofScaled_value, ← hvalue, Numeral.unsigned]

/-- Where a script has an exponent, so has a message, with the same digits before it. -/
theorem scientific_display (negative : Bool) {d : Decimal}
    (hout : ¬ (script.least < d.point ∧ d.point ≤ script.limit)) :
    ∃ p, (display.numeral negative d).power = some p ∧ script.numeral negative d =
      { display.numeral negative d with power := some (!(0 < (display.numeral negative d).exponent),
        Nat.toDigits 10 (display.numeral negative d).exponent.natAbs) } := by
  have hshown : ¬ (display.least < d.point ∧ d.point ≤ display.limit) := by
    simp only [script, display] at hout ⊢
    omega
  have hpoint : d.point ≠ 1 := fun h => hout (by rw [h]; decide)
  have hparts : display.numeral negative d = ⟨negative, d.digits.take 1, d.digits.drop 1, some (display.raised d)⟩ :=
    if_neg hshown
  have hexponent : (display.numeral negative d).exponent = d.point - 1 := by
    rw [hparts]
    exact (raised_spec display d).2.2
  have hsign : (!decide (0 < d.point - 1)) = decide (d.point - 1 < 0) := by
    rw [← decide_not, decide_eq_decide]
    omega
  refine ⟨_, by rw [hparts], ?_⟩
  rw [hexponent, hparts, numeral, if_neg hout, (raised_script hpoint).1, hsign]

end Layout

/-- The three ways lead to the text by the shortest decimal. -/
theorem respelled?_eq (negative : Bool) (rank : Fin Binary64.ranks) :
    respelled? (.finite negative rank) = some (Layout.script.text (.finite negative rank)) := by
  unfold respelled?
  split
  · rename_i n hn
    obtain ⟨hint, hlimit⟩ := Option.filter_eq_some_iff.mp hn
    rw [Layout.text_of_small hint (of_decide_eq_true hlimit)]
  · rename_i hlarge
    have hz : rank.val ≠ 0 := by
      intro hz
      obtain rfl : rank = ⟨0, by decide⟩ := Fin.ext hz
      cases negative <;> exact absurd hlarge (by decide +kernel)
    have hshown : Layout.display.finite negative rank =
        Layout.display.numeral negative (Binary64.shortest rank) := if_neg hz
    have hin := Binary64.positional_iff hz rank.isLt
    rw [Layout.read?_display, Option.bind_eq_bind, Option.bind_some, Binary64.abs_value]
    by_cases hp : Layout.script.least < (Binary64.shortest rank).point ∧
        (Binary64.shortest rank).point ≤ Layout.script.limit
    · rw [if_pos (hin.mp hp), Layout.ofScaled_display hz, Layout.finite_negative hz, Layout.text.eq_1, if_neg hz,
        Layout.decimal, if_pos hp]
    · obtain ⟨p, hpower, hscript⟩ := Layout.scientific_display negative hp
      rw [if_neg (mt hin.mpr hp), hshown, hpower, Option.bind_eq_bind, Option.bind_some, ← hscript,
        Layout.text_numeral Layout.script_rounds (Binary64.shortest_isNumeral hz rank.isLt), Layout.text.eq_1, if_neg hz]

/-! ## Texts of finite numbers -/

/-- A finite number has a text, the one that its text in a message is turned into. Both texts stand for one value, but
    the one in a script is canonical, and it has an exponent below the number nearest to a millionth and from `10 ^ 21`
    on. But for the two zeros no two numbers share a text, and no text has a character that stands behind a number. -/
theorem number_text_canonical (negative : Bool) (rank : Fin Binary64.ranks) :
    ∃ text printed shown, Json.numberScript (.float (.finite negative rank)) = .ok text ∧
      respelled? (.finite negative rank) = some text ∧ Numeral.read? text = some printed ∧
      Numeral.read? (Json.display (.float (.finite negative rank))) = some shown ∧ printed.value = shown.value ∧
      printed.Canonical ∧ (rank.val = 0 → text = "0") ∧
      (printed.power.isSome = true ↔ rank.val ≠ 0 ∧
        (|(Binary64.finite negative rank).value| < (Binary64.ofDecimal false 1 (-6)).value ∨
          10 ^ 21 ≤ |(Binary64.finite negative rank).value|)) ∧
      (∀ other r, Json.numberScript (.float (.finite other r)) = .ok text →
        Binary64.finite other r = .finite negative rank ∨ r.val = 0 ∧ rank.val = 0) ∧
      ∀ c ∈ text.toList, c ∉ [',', ':', ']', '\x7d'] := by
  refine ⟨Layout.script.text (.finite negative rank), Layout.script.finite negative rank,
    Layout.display.finite negative rank, rfl, respelled?_eq negative rank, ?_, Layout.read?_display negative rank, ?_,
    Layout.finite_script_canonical negative rank, fun hz => ?_, ?_, fun other r h => Layout.script_inj (Except.ok.inj h),
    fun c hc => ?_⟩
  · rw [Layout.text_finite Layout.script_rounds, Numeral.read?_text (Layout.finite_legible Layout.script_rounds _ _)]
  · rw [Numeral.value, Numeral.value, Layout.finite_unsigned Layout.script_rounds,
      Layout.finite_unsigned Layout.display_rounds]
    by_cases hz : rank.val = 0
    · simp only [if_pos hz, neg_zero, ite_self]
    · rw [Layout.finite_negative hz, Layout.finite_negative hz]
  · rw [Layout.text.eq_1, if_pos hz]
    cases negative <;> rfl
  · rw [Binary64.abs_value]
    exact Layout.finite_script_power negative rank
  · have hnumber := Layout.numeric_text (l := Layout.script) (by decide) (.finite negative rank) c hc
    have hnone : ∀ c ∈ [',', ':', ']', '\x7d'], (!isNumberChar c) = true := List.all_eq_true.mp (by decide)
    intro hmem
    have hno := hnone c hmem
    rw [hnumber] at hno
    cases hno

end GraphScript
