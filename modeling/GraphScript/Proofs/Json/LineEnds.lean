/-
  GraphScript.Proofs.Json.LineEnds — line ends count for the place of a fault alone.

  A carriage return, a line feed and both together are blanks between the parts of a text, and in none
  of its strings, names and numbers may they stand. So a text and the same with other line ends
  (`Relined`) hold the same value or are refused for the same reason, though not always at the same
  place. The reader goes through both side by side; what it leaves of one is what it leaves of the
  other, but for line ends (`Alike`).

  The fuel of the two is not the same, since one text may be shorter. It is enough for both.

  - `read_relined`
-/
import GraphScript.Disk.Basic
import GraphScript.Proofs.Json.Stops
import GraphScript.Proofs.Json.Strings

namespace GraphScript.Json

open Faults

/-! ## Line ends -/

/-- The second text is the first with line feeds for some of its other line ends. -/
inductive Relined : List Char → List Char → Prop where
  | nil : Relined [] []
  | same (c : Char) {cs ds : List Char} (rest : Relined cs ds) : Relined (c :: cs) (c :: ds)
  | carriage {cs ds : List Char} (rest : Relined cs ds) : Relined ('\r' :: cs) ('\n' :: ds)
  | both {cs ds : List Char} (rest : Relined cs ds) : Relined ('\r' :: '\n' :: cs) ('\n' :: ds)

theorem relined_lineFeeds (cs : List Char) : Relined cs (Text.lineFeeds cs) := by
  fun_induction Text.lineFeeds cs with
  | case1 => exact .nil
  | case2 rest ih => exact .both ih
  | case3 rest _ ih => exact .carriage ih
  | case4 c rest _ _ ih => exact .same c ih

namespace Relined

variable {cs ds es w : List Char} {c : Char}

theorem cons_left (h : Relined (c :: cs) es) (hc : c ≠ '\r') : ∃ ds, es = c :: ds ∧ Relined cs ds := by
  cases h with
  | same _ h => exact ⟨_, rfl, h⟩
  | carriage _ | both _ => exact absurd rfl hc

theorem cons_right (h : Relined es (c :: ds)) (hc : c ≠ '\n') : ∃ cs, es = c :: cs ∧ Relined cs ds := by
  cases h with
  | same _ h => exact ⟨_, rfl, h⟩
  | carriage _ | both _ => exact absurd rfl hc

theorem append_left (h : Relined (w ++ cs) es) (hw : '\r' ∉ w) : ∃ ds, es = w ++ ds ∧ Relined cs ds := by
  induction w generalizing es with
  | nil => exact ⟨es, rfl, h⟩
  | cons c w ih =>
    obtain ⟨hc, hw⟩ := not_or.mp (mt List.mem_cons.mpr hw)
    obtain ⟨es, rfl, hes⟩ := h.cons_left (Ne.symm hc)
    obtain ⟨ds, rfl, hds⟩ := ih hes hw
    exact ⟨ds, rfl, hds⟩

theorem append_right (h : Relined es (w ++ ds)) (hw : '\n' ∉ w) : ∃ cs, es = w ++ cs ∧ Relined cs ds := by
  induction w generalizing es with
  | nil => exact ⟨es, rfl, h⟩
  | cons c w ih =>
    obtain ⟨hc, hw⟩ := not_or.mp (mt List.mem_cons.mpr hw)
    obtain ⟨es, rfl, hes⟩ := h.cons_right (Ne.symm hc)
    obtain ⟨cs, rfl, hcs⟩ := ih hes hw
    exact ⟨cs, rfl, hcs⟩

/-- A character that is no line end starts both texts or neither of them. -/
theorem starts (h : Relined cs ds) (c : Char) (hr : c ≠ '\r') (hn : c ≠ '\n') :
    (∃ rest rest', cs = c :: rest ∧ ds = c :: rest' ∧ Relined rest rest') ∨
      (∀ rest, cs ≠ c :: rest) ∧ ∀ rest, ds ≠ c :: rest := by
  by_cases hstarts : ∃ rest, cs = c :: rest
  · obtain ⟨rest, rfl⟩ := hstarts
    obtain ⟨rest', rfl, hrest⟩ := h.cons_left hr
    exact .inl ⟨rest, rest', rfl, rfl, hrest⟩
  · refine .inr ⟨fun rest hcs => hstarts ⟨rest, hcs⟩, fun rest hds => ?_⟩
    subst hds
    obtain ⟨rest', hcs, -⟩ := h.cons_right hn
    exact hstarts ⟨rest', hcs⟩

/-- A class of characters without line ends. -/
theorem takeWhile (h : Relined cs ds) {p : Char → Bool} (hr : p '\r' = false) (hn : p '\n' = false) :
    ds.takeWhile p = cs.takeWhile p ∧ Relined (cs.dropWhile p) (ds.dropWhile p) := by
  induction h with
  | nil => exact ⟨rfl, .nil⟩
  | same c h ih =>
    cases hc : p c with
    | true => simpa [hc] using ih
    | false => simpa [hc] using h.same c
  | carriage h _ => simpa [hr, hn] using h.carriage
  | both h _ => simpa [hr, hn] using h.both

theorem skipBlanks (h : Relined cs ds) : Relined (skipBlanks cs) (skipBlanks ds) := by
  have hblank (c : Char) (cs : List Char) :
      Json.skipBlanks (c :: cs) = if isBlank c then Json.skipBlanks cs else c :: cs := List.dropWhile_cons
  induction h with
  | nil => exact .nil
  | same c h ih =>
    rw [hblank, hblank]
    split
    · exact ih
    · exact h.same c
  | carriage _ ih | both _ ih => exact ih

end Relined

/-! ## Side by side -/

/-- The same is found, with the same left but for line ends, or reading fails for the same reason. -/
inductive Alike {α : Type} : Except Stop (α × List Char) → Except Stop (α × List Char) → Prop where
  | ok (a : α) {left left' : List Char} (rest : Relined left left') : Alike (.ok (a, left)) (.ok (a, left'))
  | malformed (reason : Reason) (left left' : List Char) :
    Alike (.error (.malformed reason left)) (.error (.malformed reason left'))
  | longInteger (n : Nat) : Alike (.error (.longInteger n)) (.error (.longInteger n))

namespace Alike

variable {α β : Type} {x y : Except Stop (α × List Char)}

theorem bind (h : Alike x y) {f g : α × List Char → Except Stop (β × List Char)}
    (hf : ∀ a left left', x = .ok (a, left) → y = .ok (a, left') → Relined left left' →
      Alike (f (a, left)) (g (a, left'))) : Alike (x >>= f) (y >>= g) := by
  cases h with
  | ok a h => exact hf a _ _ rfl rfl h
  | malformed reason left left' => exact .malformed reason left left'
  | longInteger n => exact .longInteger n

theorem map (h : Alike x y) (f : α → β) :
    Alike (x.map fun found => (f found.1, found.2)) (y.map fun found => (f found.1, found.2)) := by
  cases h with
  | ok a h => exact .ok (f a) h
  | malformed reason left left' => exact .malformed reason left left'
  | longInteger n => exact .longInteger n

end Alike

/-! ## Strings -/

section

variable {cs ds : List Char}

theorem hexDigits_of_unit? {a b c d : Char} {u : Nat} (h : unit? a b c d = some u) :
    ∀ x ∈ [a, b, c, d], hexDigit? x ≠ none := by
  intro x hx hnone
  simp only [List.mem_cons, List.not_mem_nil, or_false] at hx
  rcases hx with rfl | rfl | rfl | rfl <;> simp [unit?, hnone] at h

theorem not_mem_of_unit? {a b c d : Char} {u : Nat} (h : unit? a b c d = some u) :
    '\r' ∉ [a, b, c, d] ∧ '\n' ∉ [a, b, c, d] :=
  ⟨fun hmem => hexDigits_of_unit? h _ hmem (by decide), fun hmem => hexDigits_of_unit? h _ hmem (by decide)⟩

/-- An escape without its four digits. -/
theorem codes_no_unit (opening ds : List Char)
    (h : ∀ a b c d next after u, ds = [a, b, c, d] ++ next :: after → unit? a b c d ≠ some u) :
    ∃ left, codes opening ('\\' :: 'u' :: ds) = .error (.malformed .unicodeEscape left) := by
  by_cases hfive : ∃ a b c d next after, ds = a :: b :: c :: d :: next :: after
  · obtain ⟨a, b, c, d, next, after, rfl⟩ := hfive
    rw [codes]
    cases hu : unit? a b c d with
    | some u => exact absurd hu (h a b c d next after u rfl)
    | none => exact ⟨_, rfl⟩
  · rw [codes]
    · exact ⟨_, rfl⟩
    · exact fun a b c d next after hds => hfive ⟨a, b, c, d, next, after, hds⟩

theorem codes_bad_escape (opening : List Char) {c : Char} (hu : c ≠ 'u') (h : escaped? c = none) :
    codes opening ('\\' :: c :: ds) = .error (.malformed .escape ('\\' :: c :: ds)) := by
  rw [codes, h]
  exact hu

theorem codes_control (opening : List Char) {c : Char} (h : c.toNat < 0x20) :
    codes opening (c :: ds) = .error (.malformed .control (c :: ds)) := by
  have hc (d : Char) (hd : ¬ d.toNat < 0x20) : c ≠ d := fun hcd => hd (hcd ▸ h)
  rw [codes, if_pos h]
  · exact hc _ (by decide)
  · exact fun hb => absurd hb (hc _ (by decide))
  · exact fun _ hb => absurd hb (hc _ (by decide))
  · exact fun _ _ hb => absurd hb (hc _ (by decide))

/-- What is read as a string of the one is read as a string of the other. -/
theorem codes_alike (h : Relined cs ds) (opening opening' : List Char) :
    Alike (codes opening cs) (codes opening' ds) := by
  fun_induction codes opening cs generalizing ds with
  | case1 =>
    cases h
    exact .malformed ..
  | case2 rest =>
    obtain ⟨ds, rfl, hds⟩ := h.cons_left (by decide)
    exact .ok _ hds
  | case3 =>
    obtain ⟨ds, rfl, hds⟩ := h.cons_left (by decide)
    cases hds
    exact .malformed ..
  | case4 a b c d next after u hu ih =>
    obtain ⟨hr, -⟩ := not_mem_of_unit? hu
    obtain ⟨ds, rfl, hds⟩ := h.append_left (w := ['\\', 'u', a, b, c, d]) (by simp_all)
    obtain ⟨next', after', rfl⟩ : ∃ next' after', ds = next' :: after' := by
      cases hds <;> exact ⟨_, _, rfl⟩
    have hright : codes opening' ('\\' :: 'u' :: a :: b :: c :: d :: next' :: after') =
        behind [u] (codes opening' (next' :: after')) := by
      rw [codes, hu]
      rfl
    exact hright ▸ (ih hds).map (u :: ·)
  | case5 a b c d next after hu =>
    obtain ⟨ds, rfl, hds⟩ := h.append_left (w := ['\\', 'u']) (by decide)
    obtain ⟨left, hright⟩ := codes_no_unit opening' ds fun a' b' c' d' next' after' u hfour hu' => by
      subst hfour
      obtain ⟨cs, hcs, -⟩ := hds.append_right (not_mem_of_unit? hu').2
      obtain ⟨rfl, rfl, rfl, rfl, -⟩ : a = a' ∧ b = b' ∧ c = c' ∧ d = d' ∧ next :: after = cs := by simpa using hcs
      exact absurd (hu'.symm.trans hu) (Option.some_ne_none u)
    exact hright ▸ .malformed ..
  | case6 rest hshort =>
    obtain ⟨ds, rfl, hds⟩ := h.append_left (w := ['\\', 'u']) (by decide)
    obtain ⟨left, hright⟩ := codes_no_unit opening' ds fun a b c d next after u hfour hu => by
      subst hfour
      obtain ⟨cs, rfl, hcs⟩ := hds.append_right (not_mem_of_unit? hu).2
      cases hcs <;> exact hshort _ _ _ _ _ _ rfl
    exact hright ▸ .malformed ..
  | case7 c rest hu d hd ih =>
    have hc : c ≠ '\r' := by
      rintro rfl
      cases hd
    obtain ⟨ds, rfl, hds⟩ := h.append_left (w := ['\\', c]) (by simp [Ne.symm hc])
    exact (codes_escape opening' hd hu : codes opening' ('\\' :: c :: ds) = _) ▸ (ih hds).map (d.toNat :: ·)
  | case8 c rest hu hnone =>
    obtain ⟨ds, rfl, hds⟩ := h.cons_left (by decide)
    cases hds with
    | same _ hds =>
      rw [codes_bad_escape opening' hu hnone]
      exact .malformed ..
    | carriage hds | both hds =>
      rw [codes_bad_escape opening' (by decide) (by decide)]
      exact .malformed ..
  | case9 c rest _ _ _ _ hc =>
    cases h with
    | same _ hds =>
      rw [codes_control opening' hc]
      exact .malformed ..
    | carriage hds | both hds =>
      rw [codes_control opening' (by decide)]
      exact .malformed ..
  | case10 c rest hq hlast _ hescape hc ih =>
    have hb : c ≠ '\\' := by
      rintro rfl
      cases rest with
      | nil => exact hlast rfl rfl
      | cons d rest => exact hescape d rest rfl rfl
    obtain ⟨ds, rfl, hds⟩ := h.cons_left (by
      rintro rfl
      exact hc (by decide))
    exact codes_plain opening' (Nat.not_lt.mp hc) hq hb ▸ (ih hds).map (c.toNat :: ·)

theorem string_alike (h : Relined cs ds) : Alike (string cs) (string ds) :=
  (codes_alike h _ _).map fun us => String.ofList (charsOfCodes us)

/-! ## Numbers -/

/-- The same is found, and the same is left but for line ends. -/
def SameFound {α : Type} (x y : α × List Char) : Prop := x.1 = y.1 ∧ Relined x.2 y.2

theorem span_found (h : Relined cs ds) : SameFound (cs.span Char.isDigit) (ds.span Char.isDigit) := by
  obtain ⟨hfound, hleft⟩ := h.takeWhile (p := Char.isDigit) (by decide) (by decide)
  rw [List.span_eq_takeWhile_dropWhile, List.span_eq_takeWhile_dropWhile]
  exact ⟨hfound.symm, hleft⟩

theorem fraction_found (h : Relined cs ds) : SameFound (fraction cs) (fraction ds) := by
  cases h with
  | nil => exact ⟨rfl, .nil⟩
  | carriage h => exact ⟨rfl, h.carriage⟩
  | both h => exact ⟨rfl, h.both⟩
  | @same c cs ds h =>
    by_cases hc : c = '.'
    · subst hc
      obtain ⟨hfound, hleft⟩ := span_found h
      rw [fraction, fraction]
      generalize cs.span Char.isDigit = x, ds.span Char.isDigit = y at hfound hleft
      obtain ⟨found, left⟩ := x
      obtain ⟨found', left'⟩ := y
      obtain rfl : found = found' := hfound
      cases found with
      | nil => exact ⟨rfl, h.same '.'⟩
      | cons d found => exact ⟨rfl, hleft⟩
    · rw [fraction, fraction]
      · exact ⟨rfl, h.same c⟩
      · exact fun _ hcs => hc (List.cons.inj hcs).1
      · exact fun _ hcs => hc (List.cons.inj hcs).1

/-- The sign of an exponent. -/
def exponentSign : List Char → Bool × List Char
  | '-' :: digits => (true, digits)
  | '+' :: digits => (false, digits)
  | digits => (false, digits)

theorem exponentSign_found (h : Relined cs ds) : SameFound (exponentSign cs) (exponentSign ds) := by
  cases h with
  | nil => exact ⟨rfl, .nil⟩
  | carriage h => exact ⟨rfl, h.carriage⟩
  | both h => exact ⟨rfl, h.both⟩
  | @same c cs ds h =>
    by_cases hminus : c = '-'
    · subst hminus
      exact ⟨rfl, h⟩
    by_cases hplus : c = '+'
    · subst hplus
      exact ⟨rfl, h⟩
    have hnone (cs : List Char) : exponentSign (c :: cs) = (false, c :: cs) := by
      rw [exponentSign]
      · exact fun _ hcs => hminus (List.cons.inj hcs).1
      · exact fun _ hcs => hplus (List.cons.inj hcs).1
    rw [hnone, hnone]
    exact ⟨rfl, h.same c⟩

theorem power_mark {e : Char} (he : e = 'e' ∨ e = 'E') : power (e :: cs) =
    match (exponentSign cs).2.span Char.isDigit with
    | ([], _) => (none, e :: cs)
    | (found, left) =>
      (some (if (exponentSign cs).1 then -(natOfDigits found : Int) else natOfDigits found), left) := by
  unfold power
  dsimp only
  rw [if_pos he]
  rfl

theorem power_found (h : Relined cs ds) : SameFound (power cs) (power ds) := by
  cases h with
  | nil => exact ⟨rfl, .nil⟩
  | carriage h => exact ⟨rfl, h.carriage⟩
  | both h => exact ⟨rfl, h.both⟩
  | @same e cs ds h =>
    by_cases he : e = 'e' ∨ e = 'E'
    · obtain ⟨hsign, hdigits⟩ := exponentSign_found h
      obtain ⟨hfound, hleft⟩ := span_found hdigits
      rw [power_mark he, power_mark he, hsign]
      generalize (exponentSign cs).2.span Char.isDigit = x, (exponentSign ds).2.span Char.isDigit = y at hfound hleft
      obtain ⟨found, left⟩ := x
      obtain ⟨found', left'⟩ := y
      obtain rfl : found = found' := hfound
      cases found with
      | nil => exact ⟨rfl, h.same e⟩
      | cons d found => exact ⟨rfl, hleft⟩
    · have hnone (cs : List Char) : power (e :: cs) = (none, e :: cs) := if_neg he
      rw [hnone, hnone]
      exact ⟨rfl, h.same e⟩

/-- The digits in front of a number. -/
def leadingDigits (cs : List Char) : List Char × List Char :=
  match cs with
  | '0' :: rest => (['0'], rest)
  | _ => cs.span Char.isDigit

theorem leadingDigits_found (h : Relined cs ds) : SameFound (leadingDigits cs) (leadingDigits ds) := by
  cases h with
  | nil => exact ⟨rfl, .nil⟩
  | carriage h => exact ⟨rfl, h.carriage⟩
  | both h => exact ⟨rfl, h.both⟩
  | @same c cs ds h =>
    by_cases hzero : c = '0'
    · subst hzero
      exact ⟨rfl, h⟩
    · rw [leadingDigits, leadingDigits]
      · exact span_found (h.same c)
      · exact fun _ hcs => hzero (List.cons.inj hcs).1
      · exact fun _ hcs => hzero (List.cons.inj hcs).1

/-- A number from its parts. -/
def assembled (negative : Bool) (digits decimals : List Char) (exponent : Option Int) (left : List Char) :
    Except Stop (Json × List Char) :=
  if decimals = [] ∧ exponent = none then
    if digitLimit < digits.length then .error (.longInteger digits.length)
    else .ok (.int (if negative then -(natOfDigits digits : Int) else natOfDigits digits), left)
  else .ok (.float (Binary64.ofDecimal negative (natOfDigits (digits ++ decimals))
    (exponent.getD 0 - decimals.length)), left)

theorem unsigned?_assembled (negative : Bool) (cs : List Char) : unsigned? negative cs =
    if (leadingDigits cs).1 = [] then none
    else some (assembled negative (leadingDigits cs).1 (fraction (leadingDigits cs).2).1
      (power (fraction (leadingDigits cs).2).2).1 (power (fraction (leadingDigits cs).2).2).2) := by
  rw [unsigned?.eq_def]
  change (match leadingDigits cs with | ([], _) => none | (whole, rest) => _) = _
  generalize leadingDigits cs = start
  obtain ⟨digits, rest⟩ := start
  cases digits with
  | nil => rfl
  | cons d digits =>
    dsimp only
    generalize fraction rest = part
    obtain ⟨decimals, rest⟩ := part
    dsimp only
    generalize power rest = last
    obtain ⟨exponent, left⟩ := last
    rw [if_neg (List.cons_ne_nil _ _), assembled]
    cases decimals with
    | cons c decimals => exact congrArg some (if_neg fun h => List.cons_ne_nil _ _ h.1).symm
    | nil =>
      cases exponent with
      | some e => exact congrArg some (if_neg fun h => Option.some_ne_none _ h.2).symm
      | none =>
        exact (apply_ite some _ _ _).symm.trans (congrArg some (if_pos ⟨rfl, rfl⟩).symm)

theorem unsigned?_alike (h : Relined cs ds) (negative : Bool) :
    Option.Rel Alike (unsigned? negative cs) (unsigned? negative ds) := by
  obtain ⟨hwhole, hrest⟩ := leadingDigits_found h
  obtain ⟨hdecimals, hrest⟩ := fraction_found hrest
  obtain ⟨hexponent, hleft⟩ := power_found hrest
  rw [unsigned?_assembled, unsigned?_assembled, hwhole, hdecimals, hexponent]
  split
  · exact .none
  · refine .some ?_
    unfold assembled
    split
    · split
      · exact .longInteger _
      · exact .ok _ hleft
    · exact .ok _ hleft

theorem number_alike (h : Relined cs ds) : Alike (number cs) (number ds) := by
  have hgetD {x y : Option (Except Stop (Json × List Char))} (hxy : Option.Rel Alike x y) (left left' : List Char) :
      Alike (x.getD (.error (.malformed .value left))) (y.getD (.error (.malformed .value left'))) := by
    cases hxy with
    | none => exact .malformed ..
    | some h => exact h
  refine hgetD ?_ _ _
  cases h with
  | nil => exact unsigned?_alike .nil false
  | carriage h => exact unsigned?_alike h.carriage false
  | both h => exact unsigned?_alike h.both false
  | @same c cs ds h =>
    by_cases hc : c = '-'
    · subst hc
      exact unsigned?_alike h true
    · split
      · exact absurd (List.cons.inj ‹_›).1 hc
      · split
        · exact absurd (List.cons.inj ‹_›).1 hc
        · exact unsigned?_alike (h.same c) false

end

/-! ## Values -/

/-- What starts every value but a number. -/
def starters : List (List Char) :=
  [['"'], ['\x7b'], ['['], "null".toList, "true".toList, "false".toList, "NaN".toList, "Infinity".toList,
    "-Infinity".toList]

theorem value_number {fuel : Nat} {cs : List Char} (h : ∀ w ∈ starters, ∀ rest, cs ≠ w ++ rest) :
    value (fuel + 1) cs = number cs := by
  rw [value.eq_def]
  dsimp only
  split
  · exact absurd rfl (h ['"'] (by decide) _)
  · exact absurd rfl (h ['\x7b'] (by decide) _)
  · exact absurd rfl (h ['['] (by decide) _)
  · exact absurd rfl (h "null".toList (by decide) _)
  · exact absurd rfl (h "true".toList (by decide) _)
  · exact absurd rfl (h "false".toList (by decide) _)
  · exact absurd rfl (h "NaN".toList (by decide) _)
  · exact absurd rfl (h "Infinity".toList (by decide) _)
  · exact absurd rfl (h "-Infinity".toList (by decide) _)
  · rfl

theorem length_skipBlanks_le (cs : List Char) : (skipBlanks cs).length ≤ cs.length := (skipBlanks_suffix cs).length_le

/-- What is left behind blanks and one character more. -/
theorem length_behind {cs rest : List Char} {c : Char} (h : skipBlanks cs = c :: rest) :
    (skipBlanks rest).length < cs.length := by
  have hcs := length_skipBlanks_le cs
  rw [h, List.length_cons] at hcs
  exact (length_skipBlanks_le rest).trans_lt hcs

/-- The two are read side by side with this much fuel for the one and enough for the other. -/
structure AlikeWithin (fuel : Nat) : Prop where
  value {cs ds : List Char} (h : Relined cs ds) {fuel' : Nat} (hc : 2 * cs.length + 1 ≤ fuel)
    (hd : 2 * ds.length + 1 ≤ fuel') : Alike (Json.value fuel cs) (Json.value fuel' ds)
  members {cs ds : List Char} (h : Relined cs ds) {fuel' : Nat} (hc : 2 * cs.length + 2 ≤ fuel)
    (hd : 2 * ds.length + 2 ≤ fuel') : Alike (membersFrom fuel cs) (membersFrom fuel' ds)
  fields {cs ds : List Char} (h : Relined cs ds) (before : Fields) {fuel' : Nat} (hc : 2 * cs.length + 2 ≤ fuel)
    (hd : 2 * ds.length + 2 ≤ fuel') : Alike (fieldsFrom fuel before cs) (fieldsFrom fuel' before ds)

section

variable {fuel fuel' : Nat} (ih : AlikeWithin fuel) {cs ds : List Char} (h : Relined cs ds)

include ih h

/-- Behind the brace of an object. -/
theorem fieldsWithin_alike (hc : 2 * cs.length + 2 ≤ fuel) (hd : 2 * ds.length + 2 ≤ fuel') :
    Alike (value (fuel + 1) ('\x7b' :: cs)) (value (fuel' + 1) ('\x7b' :: ds)) := by
  rw [value, value]
  have hlength := length_skipBlanks_le cs
  have hlength' := length_skipBlanks_le ds
  rcases h.skipBlanks.starts '\x7d' (by decide) (by decide) with ⟨rest, rest', hrest, hrest', hend⟩ | ⟨hno, hno'⟩
  · rw [hrest, hrest']
    exact .ok _ hend
  · split
    · exact absurd ‹_› (hno _)
    · exact (ih.fields h.skipBlanks [] (by omega) (by omega)).map Json.obj

/-- Behind the bracket of a list. -/
theorem membersWithin_alike (hc : 2 * cs.length + 2 ≤ fuel) (hd : 2 * ds.length + 2 ≤ fuel') :
    Alike (value (fuel + 1) ('[' :: cs)) (value (fuel' + 1) ('[' :: ds)) := by
  rw [value, value]
  have hlength := length_skipBlanks_le cs
  have hlength' := length_skipBlanks_le ds
  rcases h.skipBlanks.starts ']' (by decide) (by decide) with ⟨rest, rest', hrest, hrest', hend⟩ | ⟨hno, hno'⟩
  · rw [hrest, hrest']
    exact .ok _ hend
  · split
    · exact absurd ‹_› (hno _)
    · exact (ih.members h.skipBlanks (by omega) (by omega)).map Json.arr

theorem value_alike (hc : 2 * cs.length + 1 ≤ fuel + 1) (hd : 2 * ds.length + 1 ≤ fuel' + 1) :
    Alike (value (fuel + 1) cs) (value (fuel' + 1) ds) := by
  have hlines : ∀ w ∈ starters, '\r' ∉ w ∧ '\n' ∉ w := by decide
  by_cases hstarts : ∃ w ∈ starters, ∃ rest, cs = w ++ rest
  · obtain ⟨w, hw, rest, rfl⟩ := hstarts
    obtain ⟨rest', rfl, hrest⟩ := h.append_left (hlines w hw).1
    simp only [starters, List.mem_cons, List.not_mem_nil, or_false] at hw
    rw [List.length_append] at hc hd
    rcases hw with rfl | rfl | rfl | rfl | rfl | rfl | rfl | rfl | rfl
    · exact (string_alike hrest).map Json.str
    · rw [List.length_singleton] at hc hd
      have hobject : Alike (value (fuel + 1) ('\x7b' :: rest)) (value (fuel' + 1) ('\x7b' :: rest')) :=
        fieldsWithin_alike ih hrest (by omega) (by omega)
      exact hobject
    · rw [List.length_singleton] at hc hd
      have hlist : Alike (value (fuel + 1) ('[' :: rest)) (value (fuel' + 1) ('[' :: rest')) :=
        membersWithin_alike ih hrest (by omega) (by omega)
      exact hlist
    all_goals exact .ok _ hrest
  · have hno : ∀ w ∈ starters, ∀ rest, cs ≠ w ++ rest := fun w hw rest hcs => hstarts ⟨w, hw, rest, hcs⟩
    have hno' : ∀ w ∈ starters, ∀ rest, ds ≠ w ++ rest := fun w hw rest hds => by
      subst hds
      obtain ⟨rest', hcs, -⟩ := h.append_right (hlines w hw).2
      exact hno w hw rest' hcs
    rw [value_number hno, value_number hno']
    exact number_alike h

theorem membersFrom_alike (hc : 2 * cs.length + 2 ≤ fuel + 1) (hd : 2 * ds.length + 2 ≤ fuel' + 1) :
    Alike (membersFrom (fuel + 1) cs) (membersFrom (fuel' + 1) ds) := by
  rw [membersFrom, membersFrom]
  refine (ih.value h (by omega) (by omega)).bind fun member left left' hl hl' hleft => ?_
  have hlength : left.length ≤ cs.length := (((readsWithin fuel).value cs).left.of_ok hl).length_le
  have hlength' : left'.length ≤ ds.length := (((readsWithin fuel').value ds).left.of_ok hl').length_le
  dsimp only
  rcases hleft.skipBlanks.starts ']' (by decide) (by decide) with ⟨rest, rest', hrest, hrest', hend⟩ | ⟨hno, hno'⟩
  · rw [hrest, hrest']
    exact .ok _ hend
  rcases hleft.skipBlanks.starts ',' (by decide) (by decide) with
    ⟨rest, rest', hrest, hrest', hmore⟩ | ⟨hlast, hlast'⟩
  · rw [hrest, hrest']
    have hshorter := length_behind hrest
    have hshorter' := length_behind hrest'
    exact (ih.members hmore.skipBlanks (by omega) (by omega)).bind fun members _ _ _ _ hend => .ok _ hend
  · split
    · exact absurd ‹_› (hno _)
    · exact absurd ‹_› (hlast _)
    · exact .malformed ..

theorem fieldsFrom_alike (before : Fields) (hc : 2 * cs.length + 2 ≤ fuel + 1) (hd : 2 * ds.length + 2 ≤ fuel' + 1) :
    Alike (fieldsFrom (fuel + 1) before cs) (fieldsFrom (fuel' + 1) before ds) := by
  rcases h.starts '"' (by decide) (by decide) with ⟨cs, ds, rfl, rfl, hkey⟩ | ⟨hno, hno'⟩
  · rw [fieldsFrom, fieldsFrom]
    rw [List.length_cons] at hc hd
    refine (string_alike hkey).bind fun key left left' hl hl' hleft => ?_
    have hlength : left.length ≤ cs.length := ((string_reads cs).left.of_ok hl).length_le
    have hlength' : left'.length ≤ ds.length := ((string_reads ds).left.of_ok hl').length_le
    dsimp only
    rcases hleft.skipBlanks.starts ':' (by decide) (by decide) with
      ⟨rest, rest', hrest, hrest', hcolon⟩ | ⟨hno, hno'⟩
    · rw [hrest, hrest']
      have hshorter := length_behind hrest
      have hshorter' := length_behind hrest'
      refine (ih.value hcolon.skipBlanks (by omega) (by omega)).bind fun found left left' hl hl' hleft => ?_
      have hlength := (((readsWithin fuel).value _).left.of_ok hl).length_le
      have hlength' := (((readsWithin fuel').value _).left.of_ok hl').length_le
      dsimp only at hlength hlength' ⊢
      rcases hleft.skipBlanks.starts '\x7d' (by decide) (by decide) with
        ⟨rest, rest', hrest, hrest', hend⟩ | ⟨hno, hno'⟩
      · rw [hrest, hrest']
        exact .ok _ hend
      rcases hleft.skipBlanks.starts ',' (by decide) (by decide) with
        ⟨rest, rest', hrest, hrest', hmore⟩ | ⟨hlast, hlast'⟩
      · rw [hrest, hrest']
        have hshorter := length_behind hrest
        have hshorter' := length_behind hrest'
        exact ih.fields hmore.skipBlanks _ (by omega) (by omega)
      · split
        · exact absurd ‹_› (hno _)
        · exact absurd ‹_› (hlast _)
        · exact .malformed ..
    · split
      · exact absurd ‹_› (hno _)
      · exact .malformed ..
  · rw [fieldsFrom.eq_def, fieldsFrom.eq_def]
    dsimp only
    split
    · exact absurd rfl (hno _)
    · exact .malformed ..

end

theorem alikeWithin (fuel : Nat) : AlikeWithin fuel := by
  induction fuel with
  | zero =>
    exact ⟨fun _ _ hc => absurd hc (by omega), fun _ _ hc => absurd hc (by omega),
      fun _ _ _ hc => absurd hc (by omega)⟩
  | succ fuel ih =>
    refine ⟨fun h fuel' hc hd => ?_, fun h fuel' hc hd => ?_, fun h before fuel' hc hd => ?_⟩ <;>
      obtain _ | fuel' := fuel'
    · omega
    · exact value_alike ih h hc hd
    · omega
    · exact membersFrom_alike ih h hc hd
    · omega
    · exact fieldsFrom_alike ih h before hc hd

/-! ## Texts -/

/-- A text without a byte order mark is a value between blanks. -/
theorem document_eq {cs : List Char} (h : ∀ rest, cs ≠ '\ufeff' :: rest) : document cs =
    (value (2 * cs.length + 1) (skipBlanks cs)).bind fun found =>
      if skipBlanks found.2 = [] then .ok found.1 else .error (.malformed .extraData (skipBlanks found.2)) := by
  unfold document
  split
  · exact absurd rfl (h _)
  · refine congrArg (value (2 * cs.length + 1) (skipBlanks cs)).bind (funext fun found => ?_)
    dsimp only
    split
    · rename_i hblank
      rw [if_pos hblank]
      rfl
    · rename_i hblank
      rw [if_neg hblank]
      rfl

/-- The two as whole texts: nothing is left of either. -/
theorem document_alike {cs ds : List Char} (h : Relined cs ds) :
    Alike ((document cs).map (·, [])) ((document ds).map (·, [])) := by
  rcases h.starts '\ufeff' (by decide) (by decide) with ⟨rest, rest', rfl, rfl, hmark⟩ | ⟨hno, hno'⟩
  · exact .malformed ..
  · have hlength := length_skipBlanks_le cs
    have hlength' := length_skipBlanks_le ds
    have hvalue : Alike (value (2 * cs.length + 1) (skipBlanks cs)) (value (2 * ds.length + 1) (skipBlanks ds)) :=
      (alikeWithin _).value h.skipBlanks (by omega) (by omega)
    rw [document_eq hno, document_eq hno']
    generalize value (2 * cs.length + 1) (skipBlanks cs) = x, value (2 * ds.length + 1) (skipBlanks ds) = y at hvalue
    cases hvalue with
    | malformed reason left left' => exact .malformed ..
    | longInteger n => exact .longInteger n
    | @ok j left left' hleft =>
      have hblanks : skipBlanks left = [] ↔ skipBlanks left' = [] := by
        have hrest := hleft.skipBlanks
        generalize skipBlanks left = xs, skipBlanks left' = ys at hrest
        cases hrest <;> simp
      show Alike ((if skipBlanks left = [] then Except.ok j else _).map (·, []))
        ((if skipBlanks left' = [] then Except.ok j else _).map (·, []))
      rw [if_congr hblanks rfl rfl]
      split
      · exact .ok j .nil
      · exact .malformed ..

/-- A text and the same with other line ends hold one value, or are refused for one reason. -/
theorem read_relined {text text' : String} (h : Relined text.toList text'.toList) : read text' = read text ∨
    ∃ reason p q, read text = .error (.malformed reason p) ∧ read text' = .error (.malformed reason q) := by
  have hdocument := document_alike h
  unfold read
  generalize document text.toList = x, document text'.toList = y at hdocument
  cases x with
  | ok j =>
    cases y with
    | ok j' =>
      cases hdocument
      exact .inl rfl
    | error => cases hdocument
  | error stop =>
    cases y with
    | ok j => cases hdocument
    | error stop' =>
      cases hdocument with
      | malformed reason left left' => exact .inr ⟨reason, _, _, rfl, rfl⟩
      | longInteger n => exact .inl rfl

/-- Where line ends become line feeds, only the place of a fault can change. -/
theorem read_lineFeeds (text : String) : read (Text.read text) = read text ∨ ∃ reason p q,
    read text = .error (.malformed reason p) ∧ read (Text.read text) = .error (.malformed reason q) := by
  refine read_relined ?_
  rw [Text.read, String.toList_ofList]
  exact relined_lineFeeds _

example : read "[\r\n" = .error (.malformed .value ⟨3, 2, 1⟩) ∧
    read (Text.read "[\r\n") = .error (.malformed .value ⟨2, 2, 1⟩) := by decide +kernel

end GraphScript.Json
