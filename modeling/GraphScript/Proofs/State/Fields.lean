/-
  GraphScript.Proofs.State.Fields — when a value has fields, is nothing, or is read if it is present.

  Each way to read a value succeeds on values of one sort and fails on all others, then because the
  value does not fit (`Fault.IsMisfit`).
-/
import GraphScript.Proofs.Faults
import GraphScript.State.Fields

namespace GraphScript.Json

open Faults

theorem isNull_iff {j : Json} : j.isNull = true ↔ j = .null := by
  cases j <;> simp [isNull]

theorem is_iff {j : Json} {s : String} : j.is s = true ↔ j = .str s := by
  cases j <;> simp [is]

theorem Fields.has_iff {fs : Fields} {key : String} : fs.has key = true ↔ fs.get key ≠ .null := by
  rw [has, Bool.not_eq_true', ← Bool.not_eq_true, isNull_iff]

theorem fields_eq_ok {j : Json} {fs : Fields} : j.fields = .ok fs ↔ j = .obj fs := by
  cases j <;> simp [fields]

theorem present_eq_ok {α : Type} {f : Json → Except Fault α} {j : Json} {o : Option α} :
    j.present f = .ok o ↔ (j = .null ∧ none = o) ∨ (j ≠ .null ∧ ∃ a, f j = .ok a ∧ some a = o) := by
  unfold present
  by_cases hn : j = .null
  · simp [hn, isNull]
  · rw [if_neg (fun h => hn (isNull_iff.mp h)), map_eq_ok]
    simp [hn]

/-! ## Sorts of values -/

def IsText : Json → Prop
  | .str _ => True
  | _ => False

/-- True and false are numbers too. -/
def IsNumber : Json → Prop
  | .bool _ | .int _ | .float _ => True
  | _ => False

def IsExpression (j : Json) : Prop := j.IsText ∨ j.IsNumber

/-- What a table of modes can be asked for. -/
def IsMode : Json → Prop
  | .arr _ | .obj _ => False
  | _ => True

def IsObject (j : Json) : Prop := ∃ fs, j = .obj fs

/-- An object that has this key. -/
def HasKey (j : Json) (key : String) : Prop := ∃ fs v, j = .obj fs ∧ fs.lookup key = some v

/-- Null, or of this sort. -/
def NullOr (sort : Json → Prop) (j : Json) : Prop := j = .null ∨ sort j

/-- Not truthy, or of this sort. -/
def FalsyOr (sort : Json → Prop) (j : Json) : Prop := j.truthy = true → sort j

/-- What iteration yields is all of this sort. -/
def Yields (sort : Json → Prop) (j : Json) : Prop := ∃ members, j.members = .ok members ∧ ∀ m ∈ members, sort m

/-- The fields of an object; what is no object has none. -/
def entries : Json → Fields
  | .obj fs => fs
  | _ => []

theorem nullOr_null {sort : Json → Prop} : NullOr sort .null := .inl rfl

theorem falsyOr_null {sort : Json → Prop} : FalsyOr sort .null := nofun

/-! ## Success -/

theorem stringScript_succeeds {j : Json} : Succeeds j.stringScript ↔ j.IsText := by
  cases j <;> simp [stringScript, IsText]

theorem numberScript_succeeds {j : Json} : Succeeds j.numberScript ↔ j.IsNumber := by
  cases j <;> simp [numberScript, IsNumber]

theorem latex_succeeds {j : Json} : Succeeds j.latex ↔ j.IsExpression := by
  cases j <;> simp [latex, numberScript, IsExpression, IsText, IsNumber]

theorem present_succeeds {α : Type} {f : Json → Except Fault α} {sort : Json → Prop}
    (hf : ∀ j, Succeeds (f j) ↔ sort j) (j : Json) : Succeeds (j.present f) ↔ NullOr sort j := by
  unfold present
  by_cases hn : j = .null
  · simp [hn, isNull, NullOr]
  · rw [if_neg (fun h => hn (isNull_iff.mp h)), succeeds_map, hf]
    simp [NullOr, hn]

theorem lookupIn_succeeds {α : Type} {table : List (String × α)} {j : Json} :
    Succeeds (j.lookupIn table) ↔ j.IsMode := by
  cases j <;> simp [lookupIn, IsMode]

theorem nested_eq_ok {j : Json} {fs : Fields} : j.nested = .ok fs ↔ FalsyOr IsObject j ∧ j.entries = fs := by
  unfold nested
  by_cases ht : j.truthy = true
  · rw [if_pos ht, fields_eq_ok]
    cases j <;> simp [FalsyOr, IsObject, entries, ht]
  · rw [if_neg ht]
    cases j with
    | obj gs =>
      cases gs with
      | nil => simp [FalsyOr, entries, ht]
      | cons _ _ => exact absurd rfl ht
    | _ => simp [FalsyOr, entries, ht]

theorem need_succeeds {j : Json} {key : String} : Succeeds (j.need key) ↔ j.HasKey key := by
  cases j with
  | obj fs =>
    cases hv : fs.lookup key <;> simp [need, HasKey, hv]
  | _ => simp [need, HasKey]

/-- What comes behind a nested object sees its fields. -/
theorem nested_and_forall {j : Json} {P : Fields → Prop} :
    (Succeeds j.nested ∧ ∀ fs, j.nested = .ok fs → P fs) ↔ FalsyOr IsObject j ∧ P j.entries := by
  constructor
  · rintro ⟨⟨fs, hfs⟩, h⟩
    obtain ⟨hj, rfl⟩ := nested_eq_ok.mp hfs
    exact ⟨hj, h _ hfs⟩
  · rintro ⟨hj, h⟩
    have hfs : j.nested = .ok j.entries := nested_eq_ok.mpr ⟨hj, rfl⟩
    refine ⟨⟨_, hfs⟩, fun fs h' => ?_⟩
    rwa [← Except.ok.inj (hfs.symm.trans h')]

theorem succeeds_nested {α : Type} {j : Json} {f : Fields → Except Fault α} :
    Succeeds (j.nested >>= f) ↔ FalsyOr IsObject j ∧ Succeeds (f j.entries) :=
  succeeds_bind.trans nested_and_forall

theorem succeeds_members {α : Type} {j : Json} {f : List Json → Except Fault α} {sort : Json → Prop} {P : Prop}
    (hf : ∀ members, Succeeds (f members) ↔ (∀ m ∈ members, sort m) ∧ P) :
    Succeeds (j.members >>= f) ↔ Yields sort j ∧ P := by
  constructor
  · rintro ⟨a, h⟩
    obtain ⟨members, hm, ha⟩ := bind_eq_ok.mp h
    obtain ⟨hs, hP⟩ := (hf members).mp ⟨a, ha⟩
    exact ⟨⟨members, hm, hs⟩, hP⟩
  · rintro ⟨⟨members, hm, h⟩, hP⟩
    rw [hm, ok_bind]
    exact (hf members).mpr ⟨h, hP⟩

theorem succeeds_membersIfAny {α : Type} {j : Json} {f : List Json → Except Fault α} {sort : Json → Prop} {P : Prop}
    (hf : ∀ members, Succeeds (f members) ↔ (∀ m ∈ members, sort m) ∧ P) :
    Succeeds (j.membersIfAny >>= f) ↔ FalsyOr (Yields sort) j ∧ P := by
  unfold membersIfAny
  by_cases ht : j.truthy = true
  · rw [if_pos ht, succeeds_members hf]
    simp [FalsyOr, ht]
  · rw [if_neg ht, ok_bind, hf]
    simp [FalsyOr, ht]

/-- What is asked of the members of a value that has them. -/
theorem falsyOr_yields {j : Json} {members : List Json} {sort : Json → Prop} (h : j.membersIfAny = .ok members) :
    FalsyOr (Yields sort) j ↔ ∀ m ∈ members, sort m := by
  unfold membersIfAny at h
  split at h
  · rename_i ht
    simp [FalsyOr, ht, Yields, h]
  · rename_i ht
    obtain rfl := Except.ok.inj h
    simp [FalsyOr, ht]

namespace Fields

theorem latex_succeeds {fs : Fields} {key : String} : Succeeds (fs.latex key) ↔ NullOr IsExpression (fs.get key) :=
  present_succeeds (fun _ => Json.latex_succeeds) _

theorem interval_succeeds {fs : Fields} :
    Succeeds fs.interval ↔ ∀ key ∈ ["min", "max", "step"], NullOr IsExpression (fs.get key) := by
  simp only [interval, succeeds_bind, pure_eq, succeeds_ok, implies_true, and_true, succeeds_and_forall]
  simp [latex_succeeds]

end Fields

end GraphScript.Json

/-! ## Faults -/

namespace GraphScript

open Faults

/-- The fault of a value that does not fit where it stands. -/
def Fault.IsMisfit (f : Fault) : Prop := f = .noMember ∨ f = .wrongType

namespace Json

theorem fields_misfit (j : Json) : FailsWith Fault.IsMisfit j.fields := by
  cases j <;> simp [fields, Fault.IsMisfit]

theorem nested_misfit (j : Json) : FailsWith Fault.IsMisfit j.nested := by
  unfold nested
  split
  · exact j.fields_misfit
  · exact failsWith_ok _

theorem members_misfit (j : Json) : FailsWith Fault.IsMisfit j.members := by
  cases j <;> simp [members, Fault.IsMisfit]

theorem membersIfAny_misfit (j : Json) : FailsWith Fault.IsMisfit j.membersIfAny := by
  unfold membersIfAny
  split
  · exact j.members_misfit
  · exact failsWith_ok _

theorem stringScript_misfit (j : Json) : FailsWith Fault.IsMisfit j.stringScript := by
  cases j <;> simp [stringScript, Fault.IsMisfit]

theorem numberScript_misfit (j : Json) : FailsWith Fault.IsMisfit j.numberScript := by
  cases j <;> simp [numberScript, Fault.IsMisfit]

theorem latex_misfit (j : Json) : FailsWith Fault.IsMisfit j.latex := by
  cases j <;> simp [latex, numberScript_misfit]

theorem lookupIn_misfit {α : Type} (table : List (String × α)) (j : Json) :
    FailsWith Fault.IsMisfit (j.lookupIn table) := by
  cases j <;> simp [lookupIn, Fault.IsMisfit]

theorem present_failsWith {α : Type} {faults : Fault → Prop} {f : Json → Except Fault α}
    (hf : ∀ j, FailsWith faults (f j)) (j : Json) : FailsWith faults (j.present f) := by
  unfold present
  split
  · exact failsWith_ok _
  · exact failsWith_map.mpr (hf j)

namespace Fields

theorem latex_misfit (fs : Fields) (key : String) : FailsWith Fault.IsMisfit (fs.latex key) :=
  present_failsWith Json.latex_misfit _

theorem interval_misfit (fs : Fields) : FailsWith Fault.IsMisfit fs.interval := by
  simp [interval, failsWith_bind, latex_misfit]

end Fields

end Json

end GraphScript
