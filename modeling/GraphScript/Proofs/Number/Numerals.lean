/-
  GraphScript.Proofs.Number.Numerals — the parts of a number's text, and what they stand for.

  A text of a finite number is a sign, digits, digits behind a point and a power of ten, the last two
  where it has them. `read?` finds these parts in a text by its marks, `value` is what they stand
  for. Every layout of a decimal writes such parts down, and they have the value of the decimal.

  - `read?_text`: the parts of a text are those that it was written from.
  - `Layout.text_finite`, `Layout.numeral_unsigned`
-/
import GraphScript.Proofs.Number.Canonical
import GraphScript.Proofs.Text.Splitting

namespace GraphScript

open Json

/-- A sign, the digits before and behind a point, and a power of ten: whether it is below one, and its digits. -/
structure Numeral where
  negative : Bool
  whole : List Char
  decimals : List Char
  power : Option (Bool × List Char)
  deriving DecidableEq, Repr

namespace Numeral

def mantissa (n : Numeral) : List Char := n.whole ++ if n.decimals = [] then [] else '.' :: n.decimals

def powerText (n : Numeral) : List Char :=
  match n.power with
  | none => []
  | some (below, ds) => 'e' :: (if below then '-' else '+') :: ds

def text (n : Numeral) : String := Layout.sign n.negative ++ String.ofList (n.mantissa ++ n.powerText)

def exponent (n : Numeral) : Int :=
  match n.power with
  | none => 0
  | some (below, ds) => if below then -(natOfDigits ds : Int) else natOfDigits ds

/-- The number without its sign is `natOfDigits digits · 10 ^ scale`. -/
def digits (n : Numeral) : List Char := n.whole ++ n.decimals

def scale (n : Numeral) : Int := n.exponent - n.decimals.length

def unsigned (n : Numeral) : ℚ := natOfDigits n.digits * 10 ^ n.scale

def value (n : Numeral) : ℚ := if n.negative then -n.unsigned else n.unsigned

/-- Digits in all of its places. -/
def Legible (n : Numeral) : Prop :=
  n.whole ≠ [] ∧ (∀ c ∈ n.digits, c.isDigit = true) ∧
    ∀ p ∈ n.power, p.2 ≠ [] ∧ ∀ c ∈ p.2, c.isDigit = true

instance (n : Numeral) : Decidable n.Legible :=
  decidable_of_iff (n.whole ≠ [] ∧ n.digits.all Char.isDigit = true ∧
    n.power.all (fun p => !p.2.isEmpty && p.2.all Char.isDigit) = true)
    (by simp [Legible, Option.all_eq_true])

/-! ## Reading -/

def signed : List Char → Bool × List Char
  | '-' :: cs => (true, cs)
  | cs => (false, cs)

/-- A point has digits behind it. -/
def mantissa? (cs : List Char) : Option (List Char × List Char) :=
  match cs.splitOn '.' with
  | [whole] => some (whole, [])
  | [whole, decimals] => if decimals = [] then none else some (whole, decimals)
  | _ => none

/-- A power has a sign. -/
def power? (cs : List Char) : Option (List Char × Option (Bool × List Char)) :=
  match cs.splitOn 'e' with
  | [mantissa] => some (mantissa, none)
  | [mantissa, '+' :: ds] => some (mantissa, some (false, ds))
  | [mantissa, '-' :: ds] => some (mantissa, some (true, ds))
  | _ => none

def read? (s : String) : Option Numeral := do
  let (negative, cs) := signed s.toList
  let (cs, power) ← power? cs
  let (whole, decimals) ← mantissa? cs
  let n : Numeral := ⟨negative, whole, decimals, power⟩
  if n.Legible then some n else none

example : read? "-1.25e-07" = some ⟨true, ['1'], ['2', '5'], some (true, ['0', '7'])⟩ := by decide +kernel

variable {n : Numeral}

theorem not_mem_of_isDigit {mark : Char} {ds : List Char} (hm : ¬ mark.isDigit = true)
    (h : ∀ c ∈ ds, c.isDigit = true) : mark ∉ ds := fun hmem => hm (h mark hmem)

theorem mem_mantissa (h : n.Legible) {c : Char} (hc : c ∈ n.mantissa) : c.isDigit = true ∨ c = '.' := by
  rcases List.mem_append.mp hc with hc | hc
  · exact .inl (h.2.1 c (List.mem_append_left _ hc))
  · split at hc
    · exact absurd hc List.not_mem_nil
    · rcases List.mem_cons.mp hc with rfl | hc
      · exact .inr rfl
      · exact .inl (h.2.1 c (List.mem_append_right _ hc))

theorem mantissa?_mantissa (h : n.Legible) : mantissa? n.mantissa = some (n.whole, n.decimals) := by
  have hwhole : '.' ∉ n.whole := not_mem_of_isDigit (by decide) fun c hc => h.2.1 c (List.mem_append_left _ hc)
  have hdecimals : '.' ∉ n.decimals := not_mem_of_isDigit (by decide) fun c hc => h.2.1 c (List.mem_append_right _ hc)
  unfold mantissa? mantissa
  by_cases hz : n.decimals = []
  · rw [if_pos hz, List.append_nil, List.splitOn_eq_singleton hwhole, hz]
  · rw [if_neg hz, List.splitOn_append_cons_self, List.splitOn_eq_singleton hwhole, List.splitOn_eq_singleton hdecimals]
    exact if_neg hz

theorem power?_body (h : n.Legible) : power? (n.mantissa ++ n.powerText) = some (n.mantissa, n.power) := by
  have hmantissa : 'e' ∉ n.mantissa := fun hmem => by
    rcases mem_mantissa h hmem with hc | hc <;> exact absurd hc (by decide)
  cases hp : n.power with
  | none =>
    rw [power?, powerText, hp, List.append_nil, List.splitOn_eq_singleton hmantissa]
  | some p =>
    obtain ⟨below, ds⟩ := p
    have hds : 'e' ∉ ds := not_mem_of_isDigit (by decide) (h.2.2 _ hp).2
    cases below with
    | false =>
      have hmark : 'e' ∉ '+' :: ds := List.not_mem_cons_of_ne_of_not_mem (by decide) hds
      simp only [power?, powerText, hp, List.splitOn_append_cons_self, List.splitOn_eq_singleton hmantissa, Bool.false_eq_true,
        if_false, List.splitOn_eq_singleton hmark, List.singleton_append]
    | true =>
      have hmark : 'e' ∉ '-' :: ds := List.not_mem_cons_of_ne_of_not_mem (by decide) hds
      simp only [power?, powerText, hp, List.splitOn_append_cons_self, List.splitOn_eq_singleton hmantissa, if_true,
        List.splitOn_eq_singleton hmark, List.singleton_append]

theorem signed_text (h : n.Legible) : signed n.text.toList = (n.negative, n.mantissa ++ n.powerText) := by
  rw [text, String.toList_append, String.toList_ofList]
  cases n.negative with
  | true => rfl
  | false =>
    obtain ⟨c, rest, hc⟩ := List.exists_cons_of_ne_nil h.1
    have hdigit : c.isDigit = true := h.2.1 c (List.mem_append_left _ (hc ▸ List.mem_cons_self ..))
    have hmantissa : n.mantissa = c :: (rest ++ if n.decimals = [] then [] else '.' :: n.decimals) := by
      rw [mantissa, hc, List.cons_append]
    rw [show (Layout.sign false).toList = [] from rfl, List.nil_append, hmantissa, List.cons_append, signed]
    rintro _ hcs
    exact absurd ((List.cons.inj hcs).1 ▸ hdigit) (by decide)

theorem read?_text (h : n.Legible) : read? n.text = some n := by
  rw [read?, signed_text h]
  simp only [power?_body h, mantissa?_mantissa h, Option.bind_eq_bind, Option.bind_some]
  exact if_pos h

theorem text_inj {m n : Numeral} (hm : m.Legible) (hn : n.Legible) (h : m.text = n.text) : m = n :=
  Option.some.inj ((read?_text hm).symm.trans ((congrArg read? h).trans (read?_text hn)))

end Numeral

/-! ## Layouts -/

/-- The digits before a point: one zero, or no leading one. -/
def IsWhole (ds : List Char) : Prop := ds = ['0'] ∨ IsNumeral ds

theorem IsWhole.ne_nil {ds : List Char} (h : IsWhole ds) : ds ≠ [] := by
  rcases h with rfl | ⟨-, c, others, rfl, -⟩ <;> exact List.cons_ne_nil _ _

theorem IsWhole.isDigit {ds : List Char} (h : IsWhole ds) : ∀ c ∈ ds, c.isDigit = true := by
  rcases h with rfl | h
  · exact List.forall_mem_singleton.mpr (by decide)
  · exact h.1

theorem isWhole_toDigits (n : Nat) : IsWhole (Nat.toDigits 10 n) := by
  by_cases hz : n = 0
  · rw [hz, Nat.toDigits_zero]
    exact .inl rfl
  · exact .inr (isNumeral_toDigits (Nat.pos_of_ne_zero hz))

theorem isWhole_append {ds es : List Char} (hd : IsNumeral ds) (he : ∀ c ∈ es, c.isDigit = true) :
    IsWhole (ds ++ es) := by
  obtain ⟨hds, c, rest, rfl, hc⟩ := hd
  exact .inr ⟨List.forall_mem_append.mpr ⟨hds, he⟩, c, rest ++ es, rfl, hc⟩

theorem isWhole_take {ds : List Char} (hd : IsNumeral ds) {n : Nat} (hn : 0 < n) : IsWhole (ds.take n) := by
  obtain ⟨hds, c, rest, rfl, hc⟩ := hd
  obtain ⟨m, rfl⟩ : ∃ m, n = m + 1 := ⟨n - 1, by omega⟩
  exact .inr ⟨fun x hx => hds x (List.mem_of_mem_take hx), c, rest.take m, rfl, hc⟩

theorem isDigit_of_mem_zeros {n : Nat} : ∀ c ∈ List.replicate n '0', c.isDigit = true := by
  intro c hc
  rw [List.eq_of_mem_replicate hc]
  decide

theorem natOfDigits_zeros_append (n : Nat) (ds : List Char) :
    natOfDigits (List.replicate n '0' ++ ds) = natOfDigits ds := by
  rw [natOfDigits_append, natOfDigits_zeros]
  simp

namespace Layout

/-- The digits before and behind the point of a decimal without power. -/
def around (l : Layout) (d : Decimal) : List Char × List Char :=
  if d.point ≤ 0 then (['0'], List.replicate (-d.point).toNat '0' ++ d.digits)
  else if d.digits.length ≤ d.point then
    (d.digits ++ List.replicate (d.point - d.digits.length).toNat '0', l.whole.toList.drop 1)
  else (d.digits.take d.point.toNat, d.digits.drop d.point.toNat)

/-- The power behind the first digit of a decimal, padded with zeros. -/
def raised (l : Layout) (d : Decimal) : Bool × List Char :=
  let written := Nat.toDigits 10 (d.point - 1).natAbs
  (d.point - 1 < 0, List.replicate (l.exponentDigits - written.length) '0' ++ written)

/-- The parts that a layout writes of a decimal. -/
def numeral (l : Layout) (negative : Bool) (d : Decimal) : Numeral :=
  if l.least < d.point ∧ d.point ≤ l.limit then ⟨negative, (l.around d).1, (l.around d).2, none⟩
  else ⟨negative, d.digits.take 1, d.digits.drop 1, some (l.raised d)⟩

/-- A whole number ends in nothing, or in a point and a zero. -/
def Rounds (l : Layout) : Prop := l.whole = "" ∨ l.whole = ".0"

instance (l : Layout) : Decidable l.Rounds := inferInstanceAs (Decidable (_ ∨ _))

/-! ### Texts -/

section

variable {l : Layout} {d : Decimal} (hl : l.Rounds) (hd : IsNumeral d.digits)

include hl in
theorem toList_whole : l.whole.toList = if l.whole.toList.drop 1 = [] then [] else '.' :: l.whole.toList.drop 1 := by
  rcases hl with hl | hl <;> rw [hl] <;> rfl

include hl in
theorem isDigit_of_mem_whole : ∀ c ∈ l.whole.toList.drop 1, c.isDigit = true := by
  rcases hl with hl | hl <;> rw [hl] <;> exact List.all_eq_true.mp (by decide)

include hl hd in
theorem toList_positional : (l.positional d).toList =
    (l.around d).1 ++ if (l.around d).2 = [] then [] else '.' :: (l.around d).2 := by
  simp only [positional, around]
  split
  · simp [zeros, hd.ne_nil]
  · split
    · rw [← toList_whole hl]
      simp [zeros]
    · have hdrop : d.digits.drop d.point.toNat ≠ [] := by
        rw [ne_eq, List.drop_eq_nil_iff]
        omega
      simp [hdrop]

theorem toList_scientific (l : Layout) (d : Decimal) : (l.scientific d).toList =
    d.digits.take 1 ++ (if d.digits.drop 1 = [] then [] else '.' :: d.digits.drop 1) ++
      'e' :: (if (l.raised d).1 then '-' else '+') :: (l.raised d).2 := by
  simp only [scientific, raised]
  generalize d.digits.take 1 = first, d.digits.drop 1 = behind
  by_cases hp : d.point - 1 < 0 <;> cases behind <;> simp [hp, zeros]

include hl hd in
theorem toList_decimal (negative : Bool) :
    (l.decimal d).toList = (l.numeral negative d).mantissa ++ (l.numeral negative d).powerText := by
  unfold decimal numeral
  split
  · rw [toList_positional hl hd, Numeral.mantissa, Numeral.powerText, List.append_nil]
  · exact toList_scientific l d

theorem numeral_negative (l : Layout) (negative : Bool) (d : Decimal) : (l.numeral negative d).negative = negative := by
  unfold numeral
  split <;> rfl

include hl hd in
theorem text_numeral (negative : Bool) : (l.numeral negative d).text = sign negative ++ l.decimal d := by
  rw [← String.toList_inj, Numeral.text, String.toList_append, String.toList_append, String.toList_ofList,
    toList_decimal hl hd negative, numeral_negative]

/-! ### Parts -/

include hl hd in
theorem around_spec : IsWhole (l.around d).1 ∧ (∀ c ∈ (l.around d).2, c.isDigit = true) ∧
    (natOfDigits ((l.around d).1 ++ (l.around d).2) * 10 ^ (-(l.around d).2.length : Int) : ℚ) = d.value := by
  unfold around
  split
  · refine ⟨.inl rfl, List.forall_mem_append.mpr ⟨isDigit_of_mem_zeros, hd.1⟩, ?_⟩
    have hone : ['0'] = List.replicate 1 '0' := rfl
    rw [hone, natOfDigits_zeros_append, natOfDigits_zeros_append, Decimal.value, List.length_append,
      List.length_replicate]
    congr 2
    omega
  · split
    · refine ⟨isWhole_append hd isDigit_of_mem_zeros, isDigit_of_mem_whole hl, ?_⟩
      obtain ⟨n, hp⟩ : ∃ n : Nat, d.point - d.digits.length = n := ⟨(d.point - d.digits.length).toNat, by omega⟩
      obtain ⟨k, hk⟩ : ∃ k, l.whole.toList.drop 1 = List.replicate k '0' := by
        rcases hl with hl | hl
        · exact ⟨0, by rw [hl]; rfl⟩
        · exact ⟨1, by rw [hl]; rfl⟩
      rw [hk, hp, Int.toNat_natCast, natOfDigits_append, natOfDigits_append, natOfDigits_zeros, natOfDigits_zeros,
        Decimal.value, hp, List.length_replicate, List.length_replicate, zpow_natCast, zpow_neg, zpow_natCast]
      push_cast
      field_simp
      ring
    · refine ⟨isWhole_take hd (by omega), hd.isDigit_drop _, ?_⟩
      rw [List.take_append_drop, Decimal.value, List.length_drop]
      congr 2
      omega

theorem raised_spec (l : Layout) (d : Decimal) : (l.raised d).2 ≠ [] ∧ (∀ c ∈ (l.raised d).2, c.isDigit = true) ∧
    (if (l.raised d).1 then -(natOfDigits (l.raised d).2 : Int) else natOfDigits (l.raised d).2) = d.point - 1 := by
  unfold raised
  refine ⟨by simp, List.forall_mem_append.mpr ⟨isDigit_of_mem_zeros, fun _ => isDigit_of_mem_toDigits⟩, ?_⟩
  dsimp only
  rw [natOfDigits_zeros_append, natOfDigits_toDigits]
  by_cases h : d.point - 1 < 0
  · rw [decide_eq_true h, if_pos rfl]
    omega
  · rw [decide_eq_false h, if_neg (by decide)]
    omega

include hl hd in
theorem numeral_isWhole (negative : Bool) : IsWhole (l.numeral negative d).whole := by
  unfold numeral
  split
  · exact (around_spec hl hd).1
  · exact isWhole_take hd one_pos

include hl hd in
theorem numeral_legible (negative : Bool) : (l.numeral negative d).Legible := by
  refine ⟨(numeral_isWhole hl hd negative).ne_nil, ?_⟩
  unfold numeral
  split
  · obtain ⟨hwhole, hdecimals, -⟩ := around_spec hl hd
    exact ⟨List.forall_mem_append.mpr ⟨hwhole.isDigit, hdecimals⟩, fun _ h => nomatch h⟩
  · obtain ⟨hne, hpower, -⟩ := raised_spec l d
    refine ⟨fun c hc => hd.1 c (by rwa [Numeral.digits, List.take_append_drop] at hc), fun p hp => ?_⟩
    rw [← Option.mem_some.mp hp]
    exact ⟨hne, hpower⟩

include hl hd in
/-- Whichever way a decimal is laid out, it has its value. -/
theorem numeral_unsigned (negative : Bool) : (l.numeral negative d).unsigned = d.value := by
  unfold numeral
  split
  · obtain ⟨-, -, hvalue⟩ := around_spec hl hd
    simpa [Numeral.unsigned, Numeral.digits, Numeral.scale, Numeral.exponent] using hvalue
  · obtain ⟨-, -, hpower⟩ := raised_spec l d
    have hlen : 0 < d.digits.length := List.length_pos_iff.mpr hd.ne_nil
    simp only [Numeral.unsigned, Numeral.digits, Numeral.scale, Numeral.exponent, List.take_append_drop, Decimal.value]
    rw [hpower, List.length_drop]
    congr 2
    omega

end

/-! ### Finite numbers -/

/-- The parts that a layout writes of a finite number. -/
def finite (l : Layout) (negative : Bool) (rank : Nat) : Numeral :=
  if rank = 0 then ⟨negative && l.signedZero, ['0'], l.whole.toList.drop 1, none⟩
  else l.numeral negative (Binary64.shortest rank)

variable {l : Layout} (hl : l.Rounds) (negative : Bool) (rank : Fin Binary64.ranks)

include hl

theorem text_finite : l.text (.finite negative rank) = (l.finite negative rank).text := by
  rw [text.eq_1, finite]
  split
  · rw [← String.toList_inj, Numeral.text, Numeral.mantissa, Numeral.powerText, ← toList_whole hl]
    simp
  · rename_i hz
    rw [text_numeral hl (Binary64.shortest_isNumeral hz rank.isLt)]

theorem finite_legible : (l.finite negative rank).Legible := by
  unfold finite
  split
  · have hzero : ∀ c ∈ ['0'], c.isDigit = true := List.forall_mem_singleton.mpr (by decide)
    exact ⟨List.cons_ne_nil _ _, List.forall_mem_append.mpr ⟨hzero, isDigit_of_mem_whole hl⟩, fun _ h => nomatch h⟩
  · rename_i hz
    exact numeral_legible hl (Binary64.shortest_isNumeral hz rank.isLt) negative

/-- The text of a finite number has the value of its shortest decimal. -/
theorem finite_unsigned : (l.finite negative rank).unsigned =
    if rank.val = 0 then 0 else (Binary64.shortest rank).value := by
  unfold finite
  split
  · have hdigits : natOfDigits (['0'] ++ l.whole.toList.drop 1) = 0 := by rcases hl with hl | hl <;> rw [hl] <;> decide
    rw [Numeral.unsigned, Numeral.digits, hdigits, Nat.cast_zero, zero_mul]
  · rename_i hz
    exact numeral_unsigned hl (Binary64.shortest_isNumeral hz rank.isLt) negative

/-- The text of a finite number is read back as the number. -/
theorem ofDecimal_finite : Binary64.ofDecimal negative (natOfDigits (l.finite negative rank).digits)
    (l.finite negative rank).scale = .finite negative rank := by
  have hvalue := finite_unsigned hl negative rank
  rw [Numeral.unsigned] at hvalue
  split at hvalue
  · rename_i hz
    have hdigits : natOfDigits (l.finite negative rank).digits = 0 := by
      exact_mod_cast (mul_eq_zero.mp hvalue).resolve_right (zpow_ne_zero _ (by norm_num))
    rw [hdigits, Binary64.ofDecimal, if_pos (.inl rfl), Binary64.ofRank, dif_pos (hz ▸ rank.isLt)]
    exact congrArg (Binary64.finite negative) (Fin.ext hz.symm)
  · exact Binary64.ofDecimal_shortest hvalue rank.isLt negative

theorem finite_isWhole : IsWhole (l.finite negative rank).whole := by
  unfold finite
  split
  · exact .inl rfl
  · rename_i hz
    exact numeral_isWhole hl (Binary64.shortest_isNumeral hz rank.isLt) negative

omit hl in
/-- Where a whole number ends in a zero behind its point, no text is that of an integer. -/
theorem finite_not_int (hw : l.whole = ".0") :
    ¬ ((l.finite negative rank).decimals = [] ∧ (l.finite negative rank).power = none) := by
  have hdrop : l.whole.toList.drop 1 = ['0'] := by rw [hw]; rfl
  unfold finite
  split
  · simp [hdrop]
  · rename_i hz
    have hd := Binary64.shortest_isNumeral hz rank.isLt
    unfold numeral
    split
    · unfold around
      split
      · simp [hd.ne_nil]
      · split
        · simp [hdrop]
        · simp only [and_true, List.drop_eq_nil_iff]
          omega
    · simp

end Layout

end GraphScript
