/-
  GraphScript.Proofs.Json.Sound — what a text can hold.

  The keys of an object differ, since a later field takes the place of an earlier one with its key,
  and a whole number has no more digits than can be read. Every value that is read is so in all of
  its parts (`Sound`).

  - `read_sound`
-/
import GraphScript.Proofs.Faults
import GraphScript.Proofs.Number.Shortest

namespace GraphScript.Json

open Faults

inductive Sound : Json → Prop where
  | null : Sound .null
  | bool (b : Bool) : Sound (.bool b)
  | int {n : Int} (digits : (Nat.toDigits 10 n.natAbs).length ≤ digitLimit) : Sound (.int n)
  | float (x : Binary64) : Sound (.float x)
  | str (s : String) : Sound (.str s)
  | arr {members : List Json} (each : ∀ x ∈ members, Sound x) : Sound (.arr members)
  | obj {fields : Fields} (keys : (fields.map (·.1)).Nodup) (each : ∀ f ∈ fields, Sound f.2) : Sound (.obj fields)

/-- The fields of an object that is sound. -/
def Fields.Sound (fields : Fields) : Prop := (fields.map (·.1)).Nodup ∧ ∀ f ∈ fields, Json.Sound f.2

theorem sound_obj {fields : Fields} : Sound (.obj fields) ↔ fields.Sound :=
  ⟨fun h => by cases h with | obj keys each => exact ⟨keys, each⟩, fun h => .obj h.1 h.2⟩

theorem sound_arr {members : List Json} : Sound (.arr members) ↔ ∀ x ∈ members, Sound x :=
  ⟨fun h => by cases h with | arr each => exact each, .arr⟩

theorem sound_int {n : Int} : Sound (.int n) ↔ (Nat.toDigits 10 n.natAbs).length ≤ digitLimit :=
  ⟨fun h => by cases h with | int digits => exact digits, .int⟩

/-! ## Fields -/

namespace Fields

theorem put_of_not_mem {fields : Fields} {key : String} (h : key ∉ fields.map (·.1)) (value : Json) :
    fields.put key value = fields ++ [(key, value)] := by
  induction fields with
  | nil => rfl
  | cons f fields ih =>
    rw [List.map_cons, List.mem_cons, not_or] at h
    rw [put, if_neg (Ne.symm h.1), ih h.2]
    rfl

theorem map_put_of_mem {fields : Fields} {key : String} (h : key ∈ fields.map (·.1)) (value : Json) :
    (fields.put key value).map (·.1) = fields.map (·.1) := by
  induction fields with
  | nil => exact absurd h List.not_mem_nil
  | cons f fields ih =>
    rw [put]
    split
    · rfl
    · rename_i hk
      have hmem := (List.mem_cons.mp h).resolve_left (Ne.symm hk)
      rw [List.map_cons, ih hmem, List.map_cons]

theorem mem_put {fields : Fields} {key : String} {value : Json} {f : String × Json}
    (h : f ∈ fields.put key value) : f ∈ fields ∨ f.2 = value := by
  induction fields with
  | nil =>
    rw [List.mem_singleton.mp h]
    exact .inr rfl
  | cons g fields ih =>
    rw [put] at h
    split at h
    · rcases List.mem_cons.mp h with rfl | h
      · exact .inr rfl
      · exact .inl (List.mem_cons_of_mem _ h)
    · rcases List.mem_cons.mp h with rfl | h
      · exact .inl (List.mem_cons_self ..)
      · exact (ih h).imp_left (List.mem_cons_of_mem _)

theorem Sound.put {fields : Fields} {key : String} {value : Json} (h : fields.Sound) (hv : Json.Sound value) :
    (fields.put key value).Sound := by
  refine ⟨?_, fun f hf => (mem_put hf).elim (h.2 f) fun he => he ▸ hv⟩
  by_cases hk : key ∈ fields.map (·.1)
  · rw [map_put_of_mem hk]
    exact h.1
  · rw [put_of_not_mem hk, List.map_append]
    refine List.nodup_append.mpr ⟨h.1, List.nodup_singleton _, fun a ha b hb => ?_⟩
    obtain rfl : b = key := List.mem_singleton.mp hb
    rintro rfl
    exact hk ha

end Fields

/-! ## Numbers -/

theorem unsigned?_sound {negative : Bool} {cs : List Char} {found : Except Stop (Json × List Char)}
    (h : unsigned? negative cs = some found) : Ensures (fun found => Sound found.1) found := by
  unfold unsigned? at h
  dsimp only at h
  split at h
  · cases h
  · rename_i whole rest hne hstart
    have hwhole : ∀ c ∈ whole, c.isDigit = true := by
      split at hstart
      · cases hstart
        exact List.forall_mem_singleton.mpr rfl
      · rw [List.span_eq_takeWhile_dropWhile] at hstart
        cases hstart
        exact fun c hc => List.mem_takeWhile_imp hc
    split at h
    · split at h
      · cases h
        exact ensures_error _
      · rename_i hl
        cases h
        have habs : (if negative then -(natOfDigits whole : Int) else natOfDigits whole).natAbs =
            natOfDigits whole := by
          cases negative <;> simp
        refine ensures_ok.mpr (.int ?_)
        rw [habs]
        exact (length_toDigits_le hwhole hne).trans (Nat.not_lt.mp hl)
    · cases h
      exact ensures_ok.mpr (.float _)

theorem number_sound (cs : List Char) : Ensures (fun found => Sound found.1) (number cs) := by
  have hgetD (o : Option (Except Stop (Json × List Char))) (e : Stop)
      (hs : ∀ found, o = some found → Ensures (fun found => Sound found.1) found) :
      Ensures (fun found => Sound found.1) (o.getD (.error e)) := by
    cases o with
    | none => exact ensures_error e
    | some found => exact hs found rfl
  refine hgetD _ _ fun found hf => ?_
  split at hf <;> exact unsigned?_sound hf

/-! ## Values -/

theorem value_sound (fuel : Nat) : (∀ cs, Ensures (fun found => Sound found.1) (value fuel cs)) ∧
    (∀ cs, Ensures (fun found => ∀ x ∈ found.1, Sound x) (membersFrom fuel cs)) ∧
    (∀ before cs, Fields.Sound before → Ensures (fun found => found.1.Sound) (fieldsFrom fuel before cs)) := by
  induction fuel with
  | zero => exact ⟨fun cs => ensures_error _, fun cs => ensures_error _, fun before cs _ => ensures_error _⟩
  | succ fuel ih =>
    obtain ⟨hvalue, hmembers, hfields⟩ := ih
    have hempty : Fields.Sound [] := ⟨List.nodup_nil, nofun⟩
    refine ⟨fun cs => ?_, fun cs => ?_, fun before cs hb => ?_⟩
    · rw [value.eq_def]
      dsimp only
      split
      · exact ensures_map.mpr fun s _ => .str _
      · split
        · exact ensures_ok.mpr (sound_obj.mpr hempty)
        · exact ensures_map.mpr fun found hf => sound_obj.mpr (hfields _ _ hempty found hf)
      · split
        · exact ensures_ok.mpr (.arr nofun)
        · exact ensures_map.mpr fun found hf => .arr (hmembers _ found hf)
      · exact ensures_ok.mpr .null
      · exact ensures_ok.mpr (.bool _)
      · exact ensures_ok.mpr (.bool _)
      · exact ensures_ok.mpr (.float _)
      · exact ensures_ok.mpr (.float _)
      · exact ensures_ok.mpr (.float _)
      · exact number_sound cs
    · rw [membersFrom]
      refine ensures_bind.mpr fun member hm => ?_
      dsimp only
      split
      · exact ensures_ok.mpr (List.forall_mem_singleton.mpr (hvalue _ _ hm))
      · refine ensures_bind.mpr fun members hms => ensures_ok.mpr ?_
        exact List.forall_mem_cons.mpr ⟨hvalue _ _ hm, hmembers _ _ hms⟩
      · exact ensures_error _
    · rw [fieldsFrom.eq_def]
      dsimp only
      split
      · refine ensures_bind.mpr fun key _ => ?_
        split
        · refine ensures_bind.mpr fun found hf => ?_
          have hput : (before.put key.1 found.1).Sound := hb.put (hvalue _ _ hf)
          split
          · exact ensures_ok.mpr hput
          · exact hfields _ _ hput
          · exact ensures_error _
        · exact ensures_error _
      · exact ensures_error _

/-- Whatever is read is sound. -/
theorem read_sound (text : String) : Ensures Sound (read text) := by
  intro j h
  unfold read at h
  cases hd : document text.toList with
  | error stop =>
    rw [hd] at h
    cases h
  | ok found =>
    rw [hd] at h
    cases h
    unfold document at hd
    split at hd
    · cases hd
    · obtain ⟨⟨j', left⟩, hv, hd⟩ := bind_eq_ok.mp hd
      dsimp only at hd
      split at hd
      · cases hd
        exact (value_sound _).1 _ _ hv
      · cases hd

end GraphScript.Json
