/-
  GraphScript.Proofs.Json.Stops — where reading stops.

  Every part of the reader leaves an end of the text that it was given, and stops at a whole number
  that is too long only where the digits of one stand in that text (`Reads`). Both go through parts
  that read one after another.

  - `read_longInteger`
-/
import GraphScript.Json.Reader
import GraphScript.Proofs.Faults
import Mathlib.Data.List.Infix
import Mathlib.Data.List.TakeWhile

namespace GraphScript.Json

open Faults

/-! ## Parts of the reader -/

/-- There are this many digits in a row, more than a whole number may have. -/
def HasLongRun (cs : List Char) (n : Nat) : Prop :=
  digitLimit < n ∧ ∃ ds : List Char, ds.length = n ∧ (∀ c ∈ ds, c.isDigit = true) ∧ ds <:+: cs

/-- It leaves an end of the text, and stops at a number that is too long only where the text has one. -/
structure Reads {α : Type} (cs : List Char) (x : Except Stop (α × List Char)) : Prop where
  left : Ensures (fun found => found.2 <:+ cs) x
  stop : FailsWith (fun stop => ∀ n, stop = .longInteger n → HasLongRun cs n) x

section

variable {α β : Type} {cs rest left : List Char} {n : Nat}

theorem HasLongRun.mono (h : HasLongRun rest n) (hs : rest <:+: cs) : HasLongRun cs n := by
  obtain ⟨hn, ds, hlength, hdigits, hds⟩ := h
  exact ⟨hn, ds, hlength, hdigits, hds.trans hs⟩

theorem reads_ok {a : α} (h : left <:+ cs) : Reads cs (.ok (a, left)) := ⟨ensures_ok.mpr h, failsWith_ok _⟩

theorem reads_malformed {reason : Reason} : Reads cs (.error (.malformed reason left) : Except Stop (α × List Char)) :=
  ⟨ensures_error _, failsWith_error.mpr nofun⟩

theorem Reads.mono {x : Except Stop (α × List Char)} (h : Reads rest x) (hs : rest <:+ cs) : Reads cs x :=
  ⟨fun a ha => (h.left a ha).trans hs, fun e he n hn => (h.stop e he n hn).mono hs.isInfix⟩

/-- What is read behind one part is read from what that part leaves. -/
theorem Reads.bind {x : Except Stop (α × List Char)} {f : α × List Char → Except Stop (β × List Char)}
    (hx : Reads cs x) (hf : ∀ found, x = .ok found → Reads found.2 (f found)) : Reads cs (x >>= f) := by
  refine ⟨ensures_bind.mpr fun found h => ?_, failsWith_bind.mpr ⟨hx.stop, fun found h => ?_⟩⟩
  · exact ((hf found h).mono (hx.left.of_ok h)).left
  · exact ((hf found h).mono (hx.left.of_ok h)).stop

theorem Reads.map {x : Except Stop (α × List Char)} {f : α × List Char → β × List Char} (h : Reads cs x)
    (hf : ∀ found, (f found).2 = found.2) : Reads cs (x.map f) :=
  ⟨ensures_map.mpr fun found hfound => (congrArg (· <:+ cs) (hf found)).mpr (h.left found hfound),
    failsWith_map.mpr h.stop⟩

theorem skipBlanks_suffix (cs : List Char) : skipBlanks cs <:+ cs := List.dropWhile_suffix _

/-- What comes next behind blanks. -/
theorem suffix_of_skipBlanks {c : Char} (h : skipBlanks cs = c :: left) : left <:+ cs :=
  (List.suffix_cons c left).trans (h ▸ skipBlanks_suffix cs)

/-- What comes behind that, and behind blanks again. -/
theorem suffix_behind {c : Char} (h : skipBlanks cs = c :: left) : skipBlanks left <:+ cs :=
  (skipBlanks_suffix left).trans (suffix_of_skipBlanks h)

/-! ## Strings and numbers -/

theorem codes_reads (opening cs : List Char) : Reads cs (codes opening cs) := by
  fun_induction codes opening cs with
  | case1 | case3 | case5 | case6 | case8 | case9 => exact reads_malformed
  | case2 rest => exact reads_ok (List.suffix_cons ..)
  | case4 a b c d next after u _ ih => exact (ih.mono ⟨['\\', 'u', a, b, c, d], rfl⟩).map fun _ => rfl
  | case7 c rest _ d _ ih => exact (ih.mono ⟨['\\', c], rfl⟩).map fun _ => rfl
  | case10 c rest _ _ _ _ _ ih => exact (ih.mono (List.suffix_cons ..)).map fun _ => rfl

theorem string_reads (cs : List Char) : Reads cs (string cs) := (codes_reads _ cs).map fun _ => rfl

theorem suffix_of_span {p : Char → Bool} {found : List Char} (h : cs.span p = (found, left)) : left <:+ cs := by
  rw [List.span_eq_takeWhile_dropWhile] at h
  exact (Prod.mk.inj h).2 ▸ List.dropWhile_suffix _

theorem fraction_suffix (cs : List Char) : (fraction cs).2 <:+ cs := by
  unfold fraction
  split
  · split
    · exact List.suffix_rfl
    · exact (suffix_of_span rfl).trans (List.suffix_cons ..)
  · exact List.suffix_rfl

theorem power_suffix (cs : List Char) : (power cs).2 <:+ cs := by
  unfold power
  split
  · rename_i e rest
    split
    · split
      rename_i digits hdigits
      have hsigned : digits <:+ rest := by
        split at hdigits <;> cases hdigits
        · exact List.suffix_cons ..
        · exact List.suffix_cons ..
        · exact List.suffix_rfl
      split
      · exact List.suffix_rfl
      · rename_i hspan
        exact ((suffix_of_span hspan).trans hsigned).trans (List.suffix_cons ..)
    · exact List.suffix_rfl
  · exact List.suffix_rfl

/-- A number that is too long is the digits in front of the text. -/
theorem unsigned?_reads {negative : Bool} {found : Except Stop (Json × List Char)}
    (h : unsigned? negative cs = some found) : Reads cs found := by
  unfold unsigned? at h
  dsimp only at h
  split at h
  · cases h
  · rename_i whole rest hne hstart
    have hwhole : (∀ c ∈ whole, c.isDigit = true) ∧ whole <+: cs ∧ rest <:+ cs := by
      split at hstart
      · cases hstart
        exact ⟨List.forall_mem_singleton.mpr rfl, List.prefix_append ['0'] _, List.suffix_cons ..⟩
      · have hrest := suffix_of_span hstart
        rw [List.span_eq_takeWhile_dropWhile] at hstart
        cases hstart
        exact ⟨fun c hc => List.mem_takeWhile_imp hc, List.takeWhile_prefix _, hrest⟩
    obtain ⟨hdigits, hinfix, hrest⟩ := hwhole
    have hleft := ((power_suffix _).trans (fraction_suffix rest)).trans hrest
    split at h
    · rename_i hpower
      rw [hpower] at hleft
      split at h
      · rename_i hlong
        cases h
        refine ⟨ensures_error _, failsWith_error.mpr fun n hn => ?_⟩
        cases hn
        exact ⟨hlong, whole, rfl, hdigits, hinfix.isInfix⟩
      · cases h
        exact reads_ok hleft
    · rename_i hpower _
      rw [hpower] at hleft
      cases h
      exact reads_ok hleft

theorem number_reads (cs : List Char) : Reads cs (number cs) := by
  have hgetD (o : Option (Except Stop (Json × List Char))) (e : Stop) (hs : ∀ found, o = some found → Reads cs found)
      (he : Reads cs (.error e : Except Stop (Json × List Char))) : Reads cs (o.getD (.error e)) := by
    cases o with
    | none => exact he
    | some found => exact hs found rfl
  refine hgetD _ _ (fun found hf => ?_) reads_malformed
  split at hf
  · exact (unsigned?_reads hf).mono (List.suffix_cons ..)
  · exact unsigned?_reads hf

end

/-! ## Values -/

/-- What the reader does with this much fuel. -/
structure ReadsWithin (fuel : Nat) : Prop where
  value (cs : List Char) : Reads cs (Json.value fuel cs)
  members (cs : List Char) : Reads cs (membersFrom fuel cs)
  fields (before : Fields) (cs : List Char) : Reads cs (fieldsFrom fuel before cs)

section

variable {fuel : Nat} (ih : ReadsWithin fuel) (cs : List Char)

include ih

theorem value_reads : Reads cs (value (fuel + 1) cs) := by
  rw [value.eq_def]
  dsimp only
  split
  · exact ((string_reads _).mono (List.suffix_cons ..)).map fun _ => rfl
  · split
    · rename_i hblank
      exact reads_ok ((suffix_of_skipBlanks hblank).trans (List.suffix_cons ..))
    · exact ((ih.fields [] _).mono ((skipBlanks_suffix _).trans (List.suffix_cons ..))).map fun _ => rfl
  · split
    · rename_i hblank
      exact reads_ok ((suffix_of_skipBlanks hblank).trans (List.suffix_cons ..))
    · exact ((ih.members _).mono ((skipBlanks_suffix _).trans (List.suffix_cons ..))).map fun _ => rfl
  · exact reads_ok ⟨"null".toList, rfl⟩
  · exact reads_ok ⟨"true".toList, rfl⟩
  · exact reads_ok ⟨"false".toList, rfl⟩
  · exact reads_ok ⟨"NaN".toList, rfl⟩
  · exact reads_ok ⟨"Infinity".toList, rfl⟩
  · exact reads_ok ⟨"-Infinity".toList, rfl⟩
  · exact number_reads cs

theorem membersFrom_reads : Reads cs (membersFrom (fuel + 1) cs) := by
  rw [membersFrom]
  refine (ih.value cs).bind fun member _ => ?_
  dsimp only
  split
  · rename_i hblank
    exact reads_ok (suffix_of_skipBlanks hblank)
  · rename_i hblank
    exact ((ih.members _).mono (suffix_behind hblank)).bind fun members _ => reads_ok List.suffix_rfl
  · exact reads_malformed

theorem fieldsFrom_reads (before : Fields) : Reads cs (fieldsFrom (fuel + 1) before cs) := by
  rw [fieldsFrom.eq_def]
  dsimp only
  split
  · refine ((string_reads _).mono (List.suffix_cons ..)).bind fun key _ => ?_
    split
    · rename_i hblank
      refine ((ih.value _).mono (suffix_behind hblank)).bind fun found _ => ?_
      split
      · rename_i hblank
        exact reads_ok (suffix_of_skipBlanks hblank)
      · rename_i hblank
        exact (ih.fields _ _).mono (suffix_behind hblank)
      · exact reads_malformed
    · exact reads_malformed
  · exact reads_malformed

end

theorem readsWithin (fuel : Nat) : ReadsWithin fuel := by
  induction fuel with
  | zero => exact ⟨fun _ => reads_malformed, fun _ => reads_malformed, fun _ _ => reads_malformed⟩
  | succ fuel ih => exact ⟨value_reads ih, membersFrom_reads ih, fun before cs => fieldsFrom_reads ih cs before⟩

theorem document_stops (cs : List Char) :
    FailsWith (fun stop => ∀ n, stop = .longInteger n → HasLongRun cs n) (document cs) := by
  unfold document
  split
  · exact failsWith_error.mpr nofun
  · refine failsWith_bind.mpr ⟨(((readsWithin _).value _).mono (skipBlanks_suffix _)).stop, fun found _ => ?_⟩
    dsimp only
    split
    · exact failsWith_ok _
    · exact failsWith_error.mpr nofun

/-- A text is refused for a whole number that is too long only where it has one. -/
theorem read_longInteger {text : String} {n : Nat} (h : read text = .error (.longInteger n)) :
    HasLongRun text.toList n := by
  unfold read at h
  cases hd : document text.toList with
  | ok found =>
    rw [hd] at h
    cases h
  | error stop =>
    rw [hd] at h
    cases stop with
    | malformed reason left => cases h
    | longInteger digits =>
      cases h
      exact document_stops _ _ hd n rfl

end GraphScript.Json
