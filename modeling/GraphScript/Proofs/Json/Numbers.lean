/-
  GraphScript.Proofs.Json.Numbers — a number that is written is read back.

  A number ends before the first character that no number has. Up to there its digits, the digits
  behind its point and its exponent are found again, and with them its value.

  - `value_int`, `value_float`
-/
import GraphScript.Json.Reader
import GraphScript.Json.Writer
import GraphScript.Proofs.Number.Numerals

namespace GraphScript.Json

/-- Nothing that a number could go on with. -/
abbrev EndsNumber (rest : List Char) : Prop := Opens (!isNumberChar ·) rest

theorem ne_of_isNumberChar {c d : Char} (hc : (!isNumberChar c) = true) (hd : isNumberChar d = true) : c ≠ d := by
  rintro rfl
  simp [hd] at hc

theorem EndsNumber.no_digit {rest : List Char} (h : EndsNumber rest) : Opens (!·.isDigit) rest :=
  h.mono fun c hc => by
    rw [Bool.not_eq_true', ← Bool.not_eq_true]
    exact fun hd => ne_of_isNumberChar hc (isNumberChar_of_isDigit hd) rfl

theorem EndsNumber.no_point {rest : List Char} (h : EndsNumber rest) : Opens (· != '.') rest :=
  h.mono fun c hc => bne_iff_ne.mpr (ne_of_isNumberChar hc (by decide))

theorem EndsNumber.no_power {rest : List Char} (h : EndsNumber rest) : Opens (fun c => c != 'e' && c != 'E') rest :=
  h.mono fun c hc => by
    simp [ne_of_isNumberChar hc (d := 'e') (by decide), ne_of_isNumberChar hc (d := 'E') (by decide)]

/-! ## Parts of a number -/

theorem span_digits {ds rest : List Char} (hd : ∀ c ∈ ds, c.isDigit = true) (hr : Opens (!·.isDigit) rest) :
    (ds ++ rest).span Char.isDigit = (ds, rest) := by
  rw [List.span_eq_takeWhile_dropWhile, List.takeWhile_append_of_pos hd, List.dropWhile_append_of_pos hd]
  cases rest with
  | nil => simp
  | cons c rest =>
    have hc : c.isDigit = false := by simpa using hr
    simp [hc]

theorem fraction_none {rest : List Char} (h : Opens (· != '.') rest) : fraction rest = ([], rest) := by
  unfold fraction
  split
  · simp at h
  · rfl

theorem fraction_some {ds rest : List Char} (hd : ∀ c ∈ ds, c.isDigit = true) (hne : ds ≠ [])
    (hr : Opens (!·.isDigit) rest) : fraction ('.' :: ds ++ rest) = (ds, rest) := by
  simp only [fraction, List.cons_append, span_digits hd hr]
  split
  · rename_i h
    exact absurd (congrArg Prod.fst h) hne
  · rfl

theorem power_none {rest : List Char} (h : Opens (fun c => c != 'e' && c != 'E') rest) : power rest = (none, rest) := by
  cases rest with
  | nil => rfl
  | cons c rest =>
    have hc : ¬ (c = 'e' ∨ c = 'E') := by simpa [not_or] using h
    rw [power.eq_def]
    exact if_neg hc

theorem power_some {ds rest : List Char} (hd : ∀ c ∈ ds, c.isDigit = true) (hne : ds ≠ [])
    (hr : Opens (!·.isDigit) rest) (negative : Bool) :
    power ('e' :: (if negative then '-' else '+') :: ds ++ rest) =
      (some (if negative then -(natOfDigits ds : Int) else natOfDigits ds), rest) := by
  have hspan := span_digits hd hr
  cases negative <;> rw [power.eq_def] <;>
    simp only [List.cons_append, true_or, if_true, Bool.false_eq_true, if_false, hspan]

section

variable {whole decimals rest middle left : List Char} {exponent : Option Int} (negative : Bool)

theorem unsigned?_eq (hw : IsWhole whole) (hr : Opens (!·.isDigit) rest) (hf : fraction rest = (decimals, middle))
    (hp : power middle = (exponent, left)) : unsigned? negative (whole ++ rest) = some (
      if decimals = [] ∧ exponent = none then
        if digitLimit < whole.length then .error (.longInteger whole.length)
        else .ok (.int (if negative then -(natOfDigits whole : Int) else natOfDigits whole), left)
      else .ok (.float (Binary64.ofDecimal negative (natOfDigits (whole ++ decimals))
        (exponent.getD 0 - decimals.length)), left)) := by
  rcases hw with rfl | ⟨hd, c, others, rfl, hc⟩
  · rw [List.singleton_append, unsigned?]
    simp only [hf, hp]
    cases decimals <;> cases exponent <;> simp [apply_ite some]
  · rw [unsigned?, span_digits hd hr]
    · simp only [hf, hp]
      cases decimals <;> cases exponent <;> simp [apply_ite some]
    · exact fun _ h => hc (List.cons.inj h).1

theorem unsigned?_int (hw : IsWhole whole) (hl : whole.length ≤ digitLimit) (hr : EndsNumber rest) :
    unsigned? negative (whole ++ rest) =
      some (.ok (.int (if negative then -(natOfDigits whole : Int) else natOfDigits whole), rest)) := by
  rw [unsigned?_eq negative hw hr.no_digit (fraction_none hr.no_point) (power_none hr.no_power), if_pos ⟨rfl, rfl⟩,
    if_neg (Nat.not_lt.mpr hl)]

theorem unsigned?_long (hw : IsWhole whole) (hl : digitLimit < whole.length) (hr : EndsNumber rest) :
    unsigned? negative (whole ++ rest) = some (.error (.longInteger whole.length)) := by
  rw [unsigned?_eq negative hw hr.no_digit (fraction_none hr.no_point) (power_none hr.no_power), if_pos ⟨rfl, rfl⟩,
    if_pos hl]

theorem unsigned?_float (hw : IsWhole whole) (hr : Opens (!·.isDigit) rest) (hf : fraction rest = (decimals, middle))
    (hp : power middle = (exponent, left)) (hne : ¬ (decimals = [] ∧ exponent = none)) :
    unsigned? negative (whole ++ rest) = some (.ok (.float (Binary64.ofDecimal negative
      (natOfDigits (whole ++ decimals)) (exponent.getD 0 - decimals.length)), left)) := by
  rw [unsigned?_eq negative hw hr hf hp, if_neg hne]

/-- What is read as a number begins with a digit. -/
theorem unsigned?_opens {cs : List Char} {found : Except Stop (Json × List Char)}
    (h : unsigned? negative cs = some found) : ∃ c rest, cs = c :: rest ∧ c.isDigit = true := by
  cases cs with
  | nil => cases h
  | cons c rest =>
    refine ⟨c, rest, rfl, ?_⟩
    by_contra hc
    have hspan : (c :: rest).span Char.isDigit = ([], c :: rest) := by
      simp [List.span_eq_takeWhile_dropWhile, hc]
    rw [unsigned?, hspan] at h
    · cases h
    · rintro _ he
      obtain ⟨rfl, -⟩ := List.cons.inj he
      exact hc (by decide)

end

/-! ## Numerals -/

theorem fraction_decimals {ds rest : List Char} (hd : ∀ c ∈ ds, c.isDigit = true) (hdigit : Opens (!·.isDigit) rest)
    (hpoint : Opens (· != '.') rest) : fraction ((if ds = [] then [] else '.' :: ds) ++ rest) = (ds, rest) := by
  by_cases hz : ds = []
  · rw [if_pos hz, hz, List.nil_append, fraction_none hpoint]
  · rw [if_neg hz, fraction_some hd hz hdigit]

/-- The parts of a text are found in it, and it is read as what they stand for. -/
theorem unsigned?_numeral {n : Numeral} (hw : IsWhole n.whole) (hn : n.Legible)
    (hfloat : ¬ (n.decimals = [] ∧ n.power = none)) (negative : Bool) {rest : List Char} (hr : EndsNumber rest) :
    unsigned? negative (n.mantissa ++ n.powerText ++ rest) =
      some (.ok (.float (Binary64.ofDecimal negative (natOfDigits n.digits) n.scale), rest)) := by
  have hdecimals : ∀ c ∈ n.decimals, c.isDigit = true := fun c hc => hn.2.1 c (List.mem_append_right _ hc)
  rw [Numeral.mantissa, List.append_assoc, List.append_assoc]
  cases hp : n.power with
  | none =>
    have hne : n.decimals ≠ [] := fun hz => hfloat ⟨hz, hp⟩
    have hf := fraction_decimals hdecimals hr.no_digit hr.no_point
    have hexponent : n.exponent = 0 := by rw [Numeral.exponent, hp]
    rw [Numeral.powerText, hp, List.nil_append, unsigned?_float negative hw ?_ hf (power_none hr.no_power)
      fun h => hne h.1, Numeral.scale, hexponent]
    · rfl
    · simp [hne]
  | some p =>
    obtain ⟨below, ds⟩ := p
    obtain ⟨hne, hds⟩ := hn.2.2 _ hp
    have hpower := power_some hds hne hr.no_digit below
    have hf : fraction ((if n.decimals = [] then [] else '.' :: n.decimals) ++
        ('e' :: (if below then '-' else '+') :: ds ++ rest)) = (n.decimals, _) :=
      fraction_decimals hdecimals (by simp) (by simp)
    have hexponent : n.exponent = if below then -(natOfDigits ds : Int) else natOfDigits ds := by
      rw [Numeral.exponent, hp]
    rw [Numeral.powerText, hp, unsigned?_float negative hw ?_ hf hpower (fun h => Option.some_ne_none _ h.2), Numeral.scale, hexponent]
    · rfl
    · by_cases hz : n.decimals = [] <;> simp [hz]

/-! ## Values -/

/-- A digit opens no value but a number. -/
theorem value_digit {c : Char} (hc : c.isDigit = true) (rest : List Char) (fuel : Nat) :
    value (fuel + 1) (c :: rest) = number (c :: rest) := by
  have hne {d : Char} {cs : List Char} (h : c :: rest = d :: cs) : d.isDigit = true := (List.cons.inj h).1 ▸ hc
  rw [value.eq_def]
  dsimp only
  split
  all_goals first | rfl | (rename_i h; exact absurd (hne h) (by decide))

/-- Nor does a dash before a digit. -/
theorem value_dash {c : Char} (hc : c.isDigit = true) (rest : List Char) (fuel : Nat) :
    value (fuel + 1) ('-' :: c :: rest) = number ('-' :: c :: rest) := by
  have hne {d : Char} {cs : List Char} (h : '-' :: c :: rest = '-' :: d :: cs) : d.isDigit = true :=
    (List.cons.inj (List.cons.inj h).2).1 ▸ hc
  rw [value.eq_def]
  dsimp only
  split
  all_goals first
    | rfl
    | (rename_i h; exact absurd (List.cons.inj h).1 (by decide))
    | (rename_i h; exact absurd (hne h) (by decide))

/-- A number with its sign, where a value is expected. -/
theorem value_signed {negative : Bool} {cs : List Char} {found : Except Stop (Json × List Char)}
    (h : unsigned? negative cs = some found) (fuel : Nat) :
    value (fuel + 1) ((Layout.sign negative).toList ++ cs) = found := by
  obtain ⟨c, rest, rfl, hc⟩ := unsigned?_opens negative h
  cases negative with
  | false =>
    have hcs : (Layout.sign false).toList ++ c :: rest = c :: rest := rfl
    rw [hcs, value_digit hc, number.eq_def]
    split
    · rename_i hcs
      exact absurd ((List.cons.inj hcs).1 ▸ hc) (by decide)
    · rw [h]
      rfl
  | true =>
    have hcs : (Layout.sign true).toList ++ c :: rest = '-' :: c :: rest := rfl
    rw [hcs, value_dash hc, number, h]
    rfl

theorem toList_int (n : Int) :
    (toString n).toList = (Layout.sign (decide (n < 0))).toList ++ Nat.toDigits 10 n.natAbs := by
  cases n with
  | ofNat m =>
    have hm : (toString (Int.ofNat m)).toList = Nat.toDigits 10 m :=
      congrArg String.toList Nat.repr_eq_ofList_toDigits |>.trans String.toList_ofList
    rw [hm, decide_eq_false (by simp)]
    rfl
  | negSucc m =>
    have hm : (toString (Int.negSucc m)).toList = '-' :: (m + 1).repr.toList := String.toList_append
    rw [hm, decide_eq_true (Int.negSucc_lt_zero m), Nat.repr_eq_ofList_toDigits, String.toList_ofList]
    rfl

theorem value_int {n : Int} (hn : (Nat.toDigits 10 n.natAbs).length ≤ digitLimit) {rest : List Char}
    (hr : EndsNumber rest) (fuel : Nat) : value (fuel + 1) ((toString n).toList ++ rest) = .ok (.int n, rest) := by
  rw [toList_int, List.append_assoc, value_signed (unsigned?_int _ (isWhole_toDigits _) hn hr), natOfDigits_toDigits]
  have hsign : (if decide (n < 0) then -(n.natAbs : Int) else n.natAbs) = n := by
    split
    · rename_i h
      have := of_decide_eq_true h
      omega
    · rename_i h
      have := of_decide_eq_false (Bool.eq_false_of_not_eq_true h)
      omega
  rw [hsign]

/-- The text of a finite number: its sign, and what is read as the number. -/
theorem finite_reads (negative : Bool) (rank : Fin Binary64.ranks) :
    ∃ cs, (Layout.json.text (.finite negative rank)).toList = (Layout.sign negative).toList ++ cs ∧
      ∀ rest, EndsNumber rest →
        unsigned? negative (cs ++ rest) = some (.ok (.float (.finite negative rank), rest)) := by
  have hl : Layout.json.Rounds := by decide
  have hnegative : (Layout.json.finite negative rank).negative = negative := by
    unfold Layout.finite
    split
    · exact Bool.and_true negative
    · exact Layout.numeral_negative ..
  refine ⟨(Layout.json.finite negative rank).mantissa ++ (Layout.json.finite negative rank).powerText, ?_,
    fun rest hr => ?_⟩
  · rw [Layout.text_finite hl, Numeral.text, String.toList_append, String.toList_ofList, hnegative]
  · rw [unsigned?_numeral (Layout.finite_isWhole hl negative rank) (Layout.finite_legible hl negative rank)
      (Layout.finite_not_int negative rank rfl) negative hr, Layout.ofDecimal_finite hl]

theorem value_float (x : Binary64) {rest : List Char} (hr : EndsNumber rest) (fuel : Nat) :
    value (fuel + 1) ((Layout.json.text x).toList ++ rest) = .ok (.float x, rest) := by
  cases x with
  | nan => rfl
  | infinity negative => cases negative <;> rfl
  | finite negative rank =>
    obtain ⟨cs, hcs, hread⟩ := finite_reads negative rank
    rw [hcs, List.append_assoc, value_signed (hread rest hr)]

/-! ## First characters -/

theorem sign_opens {negative : Bool} {cs : List Char} {c : Char} {rest : List Char} (hcs : cs = c :: rest)
    (hc : isNumberChar c = true) :
    ∃ c rest, (Layout.sign negative).toList ++ cs = c :: rest ∧ isNumberChar c = true := by
  cases negative with
  | false => exact ⟨c, rest, hcs, hc⟩
  | true => exact ⟨'-', cs, rfl, by decide⟩

theorem int_opens (n : Int) : ∃ c rest, (toString n).toList = c :: rest ∧ isNumberChar c = true := by
  rw [toList_int]
  obtain ⟨c, rest, hc⟩ := List.exists_cons_of_ne_nil (isWhole_toDigits n.natAbs).ne_nil
  exact sign_opens hc (isNumberChar_of_isDigit (isDigit_of_mem_toDigits (hc ▸ List.mem_cons_self ..)))

theorem float_opens (x : Binary64) : ∃ c rest, (Layout.json.text x).toList = c :: rest ∧ isNumberChar c = true := by
  cases x with
  | nan => exact ⟨'N', _, rfl, by decide⟩
  | infinity negative =>
    cases negative with
    | false => exact ⟨'I', _, rfl, by decide⟩
    | true => exact ⟨'-', _, rfl, by decide⟩
  | finite negative rank =>
    obtain ⟨cs, hcs, hread⟩ := finite_reads negative rank
    obtain ⟨c, rest, hc, hd⟩ := unsigned?_opens negative (hread [] (opens_nil _))
    rw [hcs]
    exact sign_opens ((List.append_nil cs).symm.trans hc) (isNumberChar_of_isDigit hd)

end GraphScript.Json
