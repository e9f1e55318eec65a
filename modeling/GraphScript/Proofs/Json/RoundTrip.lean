/-
  GraphScript.Proofs.Json.RoundTrip — a value that is written is read back, at every indent.

  Breaks and separators are blanks around brackets and commas, and no value begins with one of
  these; so each call of the reader finds its value at the start of what is left, and leaves what is
  written behind it. The fuel is what is left of the text.

  - `read_write`, `read_write_append`: any value that is sound.
-/
import GraphScript.Proofs.Json.Numbers
import GraphScript.Proofs.Json.Sound
import GraphScript.Proofs.Json.Strings

namespace GraphScript.Json

open Faults

/-! ## Blanks -/

def Blank (cs : List Char) : Prop := ∀ c ∈ cs, isBlank c = true

/-- What is indented with can be skipped. -/
def BlankIndent (indent : Option String) : Prop := ∀ unit ∈ indent, Blank unit.toList

theorem blankIndent_spaces (indent : Option Nat) : BlankIndent (indent.map spaces) := by
  intro unit hu c hc
  obtain ⟨width, -, rfl⟩ := Option.map_eq_some_iff.mp hu
  rw [spaces, String.toList_ofList] at hc
  rw [List.eq_of_mem_replicate hc]
  decide

theorem skipBlanks_append {bs rest : List Char} {c : Char} (hb : Blank bs) (hc : isBlank c = false) :
    skipBlanks (bs ++ c :: rest) = c :: rest := by
  rw [skipBlanks, List.dropWhile_append_of_pos hb, List.dropWhile_cons_of_neg (by simp [hc])]

theorem Blank.endsNumber {bs rest : List Char} (hb : Blank bs) (hr : EndsNumber rest) : EndsNumber (bs ++ rest) := by
  cases bs with
  | nil => exact hr
  | cons c bs =>
    have hc := hb c (List.mem_cons_self ..)
    simp only [isBlank, Bool.or_eq_true, decide_eq_true_eq, or_assoc] at hc
    rcases hc with rfl | rfl | rfl | rfl <;> exact opens_cons.mpr (by decide)

section

variable {indent : Option String} (hi : BlankIndent indent)

include hi

theorem lineBreak_blank (depth : Nat) : Blank (lineBreak indent depth) := by
  cases indent with
  | none => exact nofun
  | some unit =>
    intro c hc
    rcases List.mem_cons.mp hc with rfl | hc
    · decide
    · obtain ⟨cs, hcs, hc⟩ := List.mem_flatten.mp hc
      exact hi unit rfl c (List.eq_of_mem_replicate hcs ▸ hc)

theorem separator_eq (depth : Nat) : ∃ bs, Blank bs ∧ separator indent depth = ',' :: bs := by
  cases indent with
  | none => exact ⟨[' '], List.forall_mem_singleton.mpr (by decide), rfl⟩
  | some unit => exact ⟨lineBreak (some unit) depth, lineBreak_blank hi depth, rfl⟩

end

/-! ## First characters -/

/-- The characters that values begin with. -/
def opensValue (c : Char) : Bool := isNumberChar c || c = '"' || c = '[' || c = '\x7b'

theorem not_blank_of_opensValue {c : Char} (hc : opensValue c = true) :
    isBlank c = false ∧ c ≠ ']' ∧ c ≠ '\ufeff' := by
  refine ⟨?_, ?_, ?_⟩
  · rw [← Bool.not_eq_true]
    intro hb
    simp only [isBlank, Bool.or_eq_true, decide_eq_true_eq, or_assoc] at hb
    rcases hb with rfl | rfl | rfl | rfl <;> exact absurd hc (by decide)
  · rintro rfl
    exact absurd hc (by decide)
  · rintro rfl
    exact absurd hc (by decide)

theorem opensValue_of_isNumberChar {cs : List Char}
    (h : ∃ c rest, cs = c :: rest ∧ isNumberChar c = true) : ∃ c rest, cs = c :: rest ∧ opensValue c = true := by
  obtain ⟨c, rest, hcs, hc⟩ := h
  exact ⟨c, rest, hcs, by simp [opensValue, hc]⟩

theorem written_opens (indent : Option String) (depth : Nat) (j : Json) :
    ∃ c rest, written indent depth j = c :: rest ∧ opensValue c = true := by
  cases j with
  | null => exact ⟨'n', _, rfl, by decide⟩
  | bool b =>
    cases b with
    | false => exact ⟨'f', _, rfl, by decide⟩
    | true => exact ⟨'t', _, rfl, by decide⟩
  | int n => exact opensValue_of_isNumberChar (by rw [written]; exact int_opens n)
  | float x => exact opensValue_of_isNumberChar (by rw [written]; exact float_opens x)
  | str s => exact ⟨'"', _, rfl, by decide⟩
  | arr members => cases members <;> exact ⟨'[', _, rfl, by decide⟩
  | obj fields => cases fields <;> exact ⟨'\x7b', _, rfl, by decide⟩

/-! ## Values -/

/-- What the reader does with this much fuel, where it finds a value, the members of a list, or the fields of an
    object. -/
structure ReadsWritten (indent : Option String) (fuel : Nat) : Prop where
  value (j : Json) (depth : Nat) (rest : List Char) : Sound j → EndsNumber rest →
    (written indent depth j).length ≤ fuel → Json.value fuel (written indent depth j ++ rest) = .ok (j, rest)
  members (x : Json) (xs : List Json) (depth : Nat) (bs rest : List Char) : (∀ y ∈ x :: xs, Sound y) → Blank bs →
    (written indent depth x).length + (writtenMembers indent depth xs).length < fuel →
    membersFrom fuel (written indent depth x ++ (writtenMembers indent depth xs ++ (bs ++ ']' :: rest))) =
      .ok (x :: xs, rest)
  fields (before : Fields) (k : String) (x : Json) (fs : Fields) (depth : Nat) (bs rest : List Char) :
    Fields.Sound (before ++ (k, x) :: fs) → Blank bs →
    (written indent depth x).length + (writtenFields indent depth fs).length < fuel →
    fieldsFrom fuel before (writtenString k ++ ':' :: ' ' :: (written indent depth x ++
      (writtenFields indent depth fs ++ (bs ++ '\x7d' :: rest)))) = .ok (before ++ (k, x) :: fs, rest)

section

variable {indent : Option String} {fuel depth : Nat} {bs rest : List Char}

theorem skipBlanks_written (hb : Blank bs) (j : Json) :
    skipBlanks (bs ++ (written indent depth j ++ rest)) = written indent depth j ++ rest := by
  obtain ⟨c, cs, hw, hc⟩ := written_opens indent depth j
  rw [hw]
  exact skipBlanks_append hb (not_blank_of_opensValue hc).1

theorem writtenString_append (s : String) (rest : List Char) :
    writtenString s ++ rest = '"' :: (s.toList.flatMap escapedChar ++ '"' :: rest) := by simp [writtenString]

theorem skipBlanks_key (hb : Blank bs) (k : String) :
    skipBlanks (bs ++ (writtenString k ++ rest)) = writtenString k ++ rest := skipBlanks_append hb (by decide)

theorem value_quote (s : String) : value (fuel + 1) (writtenString s ++ rest) = .ok (.str s, rest) := by
  rw [writtenString_append, value, string_written]
  rfl

theorem value_bracket (hb : Blank bs) (x : Json) : value (fuel + 1) ('[' :: (bs ++ (written indent depth x ++ rest))) =
    (membersFrom fuel (written indent depth x ++ rest)).map fun (members, left) => (.arr members, left) := by
  obtain ⟨c, cs, hw, hc⟩ := written_opens indent depth x
  rw [value, skipBlanks_written hb, hw]
  split
  · rename_i h
    exact absurd (List.cons.inj h).1 (not_blank_of_opensValue hc).2.1
  · rfl

theorem value_brace (hb : Blank bs) (k : String) : value (fuel + 1) ('\x7b' :: (bs ++ (writtenString k ++ rest))) =
    (fieldsFrom fuel [] (writtenString k ++ rest)).map fun (fields, left) => (.obj fields, left) := by
  rw [value, skipBlanks_key hb]
  rfl

end

theorem endsNumber_cons {c : Char} (hc : isNumberChar c = false) (rest : List Char) : EndsNumber (c :: rest) :=
  opens_cons.mpr (by simp [hc])

section

variable {indent : Option String} (hi : BlankIndent indent) {fuel : Nat} (ih : ReadsWritten indent fuel)

include hi ih

theorem value_written (j : Json) (depth : Nat) (rest : List Char) (hs : Sound j) (hr : EndsNumber rest)
    (h : (written indent depth j).length ≤ fuel + 1) :
    value (fuel + 1) (written indent depth j ++ rest) = .ok (j, rest) := by
  cases j with
  | null => rfl
  | bool b => cases b <;> rfl
  | int n => exact value_int (sound_int.mp hs) hr fuel
  | float x => exact value_float x hr fuel
  | str s => exact value_quote s
  | arr members =>
    cases members with
    | nil => rfl
    | cons x xs =>
      have hm := ih.members x xs (depth + 1) _ rest (sound_arr.mp hs) (lineBreak_blank hi depth)
      simp only [written, List.cons_append, List.append_assoc, List.nil_append, List.length_cons, List.length_append]
        at h ⊢
      rw [value_bracket (lineBreak_blank hi _), hm (by omega)]
      rfl
  | obj fields =>
    cases fields with
    | nil => rfl
    | cons f fs =>
      obtain ⟨k, x⟩ := f
      have hf := ih.fields [] k x fs (depth + 1) _ rest (sound_obj.mp hs) (lineBreak_blank hi depth)
      simp only [written, List.cons_append, List.append_assoc, List.nil_append, List.length_cons, List.length_append]
        at h hf ⊢
      rw [value_brace (lineBreak_blank hi _), hf (by omega)]
      rfl

theorem membersFrom_written (x : Json) (xs : List Json) (depth : Nat) (bs rest : List Char)
    (hs : ∀ y ∈ x :: xs, Sound y) (hb : Blank bs)
    (h : (written indent depth x).length + (writtenMembers indent depth xs).length < fuel + 1) :
    membersFrom (fuel + 1) (written indent depth x ++ (writtenMembers indent depth xs ++ (bs ++ ']' :: rest))) =
      .ok (x :: xs, rest) := by
  rw [membersFrom]
  cases xs with
  | nil =>
    have hclose : EndsNumber (bs ++ ']' :: rest) := hb.endsNumber (endsNumber_cons (by decide) rest)
    rw [writtenMembers, List.nil_append, ih.value x depth _ (hs x (List.mem_cons_self ..)) hclose (by omega), ok_bind]
    dsimp only
    rw [skipBlanks_append hb (by decide)]
    rfl
  | cons y ys =>
    obtain ⟨seps, hseps, hsep⟩ := separator_eq hi depth
    simp only [writtenMembers, hsep, List.cons_append, List.append_assoc, List.length_cons, List.length_append] at h ⊢
    rw [ih.value x depth _ (hs x (List.mem_cons_self ..)) (endsNumber_cons (by decide) _) (by omega), ok_bind]
    have hys := ih.members y ys depth bs rest (fun z hz => hs z (List.mem_cons_of_mem _ hz)) hb (by omega)
    rw [← skipBlanks_written hseps] at hys
    show (membersFrom fuel _ >>= fun found => pure (x :: found.1, found.2)) = _
    rw [hys]
    rfl

theorem fieldsFrom_written (before : Fields) (k : String) (x : Json) (fs : Fields) (depth : Nat) (bs rest : List Char)
    (hs : Fields.Sound (before ++ (k, x) :: fs)) (hb : Blank bs)
    (h : (written indent depth x).length + (writtenFields indent depth fs).length < fuel + 1) :
    fieldsFrom (fuel + 1) before (writtenString k ++ ':' :: ' ' :: (written indent depth x ++
      (writtenFields indent depth fs ++ (bs ++ '\x7d' :: rest)))) = .ok (before ++ (k, x) :: fs, rest) := by
  have hput : before.put k x = before ++ [(k, x)] := by
    refine Fields.put_of_not_mem (fun hk => ?_) x
    have hkeys := hs.1
    rw [List.map_append, List.map_cons] at hkeys
    exact (List.nodup_append.mp hkeys).2.2 k hk k (List.mem_cons_self ..) rfl
  have hvalue (more : List Char) (hm : EndsNumber more) :
      value fuel (skipBlanks (' ' :: (written indent depth x ++ more))) = .ok (x, more) := by
    have hskip : skipBlanks ([' '] ++ (written indent depth x ++ more)) = written indent depth x ++ more :=
      skipBlanks_written (List.forall_mem_singleton.mpr (by decide)) x
    rw [← List.singleton_append, hskip]
    exact ih.value x depth more (hs.2 (k, x) (by simp)) hm (by omega)
  rw [writtenString_append, fieldsFrom, string_written, ok_bind]
  show (value fuel (skipBlanks (' ' :: (written indent depth x ++ _))) >>= _) = _
  cases fs with
  | nil =>
    rw [writtenFields, List.nil_append, hvalue _ (hb.endsNumber (endsNumber_cons (by decide) rest)), ok_bind]
    dsimp only
    rw [skipBlanks_append hb (by decide), hput]
    rfl
  | cons f fs =>
    obtain ⟨k', x'⟩ := f
    obtain ⟨seps, hseps, hsep⟩ := separator_eq hi depth
    simp only [writtenFields, hsep, List.cons_append, List.append_assoc, List.nil_append, List.length_cons,
      List.length_append] at h ⊢
    rw [hvalue _ (endsNumber_cons (by decide) _), ok_bind]
    have hfs := ih.fields (before ++ [(k, x)]) k' x' fs depth bs rest (by simpa using hs) hb (by omega)
    rw [← skipBlanks_key hseps, List.append_assoc] at hfs
    show fieldsFrom fuel (before.put k x) _ = _
    rw [hput]
    exact hfs

end

theorem readsWritten {indent : Option String} (hi : BlankIndent indent) (fuel : Nat) : ReadsWritten indent fuel := by
  induction fuel with
  | zero =>
    refine ⟨fun j depth rest _ _ h => ?_, fun _ _ _ _ _ _ _ h => absurd h (Nat.not_lt_zero _),
      fun _ _ _ _ _ _ _ _ _ h => absurd h (Nat.not_lt_zero _)⟩
    obtain ⟨c, cs, hw, -⟩ := written_opens indent depth j
    rw [hw] at h
    cases h
  | succ fuel ih => exact ⟨value_written hi ih, membersFrom_written hi ih, fieldsFrom_written hi ih⟩

theorem skipBlanks_blank {bs : List Char} (hb : Blank bs) : skipBlanks bs = [] :=
  List.dropWhile_eq_nil_iff.mpr hb

/-- What is written of a value is read as that value, whatever blanks it is indented with and stand behind it. -/
theorem read_write_append {indent : Option String} (hi : BlankIndent indent) {j : Json} (hs : Sound j)
    {ending : String} (hb : Blank ending.toList) : read (j.write indent ++ ending) = .ok j := by
  obtain ⟨c, cs, hw, hc⟩ := written_opens indent 0 j
  obtain ⟨hblank, -, hmark⟩ := not_blank_of_opensValue hc
  have hv := (readsWritten hi (2 * (written indent 0 j ++ ending.toList).length + 1)).value j 0 ending.toList hs
    (List.append_nil ending.toList ▸ hb.endsNumber (opens_nil _)) (by rw [List.length_append]; omega)
  have hskip : skipBlanks (written indent 0 j ++ ending.toList) = written indent 0 j ++ ending.toList := by
    rw [hw]
    exact skipBlanks_append (show Blank [] from nofun) hblank
  have hd : document (written indent 0 j ++ ending.toList) = .ok j := by
    rw [document, hskip, hv, ok_bind]
    · dsimp only
      rw [skipBlanks_blank hb]
      rfl
    · intro _ h
      rw [hw] at h
      exact hmark (List.cons.inj h).1
  rw [read, write, String.toList_append, String.toList_ofList, hd]
  rfl

theorem read_write {indent : Option String} (hi : BlankIndent indent) {j : Json} (hs : Sound j) :
    read (j.write indent) = .ok j := by
  have h : read (j.write indent ++ "") = .ok j := read_write_append hi hs nofun
  rwa [String.append_empty] at h

end GraphScript.Json
