/-
  GraphScript.Proofs.Json.Thinned — values with keys deleted from their objects.

  Deleting a key leaves null where its value was, and otherwise a value of the same shape: a text or
  a number is what it was, a list has as many members, an object has at most the keys that it had.
  So most sorts of values last (`Lasts`), and a demand that null meets as well stays met along any
  path (`Thinned.meets`).
-/
import GraphScript.Proofs.State.Readable

namespace GraphScript

open Faults Json

mutual

/-- Keys are deleted from objects, at any depth. -/
inductive Thinned : Json → Json → Prop
  | same (j : Json) : Thinned j j
  | arr {js js' : List Json} : List.Forall₂ Thinned js js' → Thinned (.arr js) (.arr js')
  | obj {fs gs : Json.Fields} (deleted : List String) : ThinnedFields deleted fs gs → Thinned (.obj fs) (.obj gs)

/-- Of the keys of an object, these are deleted and the others stay. -/
inductive ThinnedFields : List String → Json.Fields → Json.Fields → Prop
  | nil (deleted : List String) : ThinnedFields deleted [] []
  | drop {deleted : List String} {fs gs : Json.Fields} {key : String} (v : Json) : key ∈ deleted →
      ThinnedFields deleted fs gs → ThinnedFields deleted ((key, v) :: fs) gs
  | keep {deleted : List String} {fs gs : Json.Fields} {key : String} {v w : Json} : key ∉ deleted →
      Thinned v w → ThinnedFields deleted fs gs → ThinnedFields deleted ((key, v) :: fs) ((key, w) :: gs)

end

/-! ## Keys that are left -/

theorem ThinnedFields.lookup {deleted : List String} {fs gs : Json.Fields} (h : ThinnedFields deleted fs gs)
    {key : String} {w : Json} (hw : gs.lookup key = some w) :
    key ∉ deleted ∧ ∃ v, fs.lookup key = some v ∧ Thinned v w := by
  induction fs generalizing gs with
  | nil =>
    cases h
    cases hw
  | cons entry fs ih =>
    cases h with
    | @drop _ _ _ k v hd h =>
      obtain ⟨hk, v', hv', ht⟩ := ih h hw
      have hne : key ≠ k := fun he => hk (he ▸ hd)
      exact ⟨hk, v', by rw [List.lookup_cons, beq_eq_false_iff_ne.mpr hne]; exact hv', ht⟩
    | @keep _ _ gs k v w' hd hv h =>
      by_cases he : key = k
      · subst he
        rw [List.lookup_cons_self, Option.some.injEq] at hw
        exact ⟨hd, v, List.lookup_cons_self, hw ▸ hv⟩
      · rw [List.lookup_cons, beq_eq_false_iff_ne.mpr he] at hw
        obtain ⟨hk, v', hv', ht⟩ := ih h hw
        exact ⟨hk, v', by rw [List.lookup_cons, beq_eq_false_iff_ne.mpr he]; exact hv', ht⟩

theorem ThinnedFields.mem {deleted : List String} {fs gs : Json.Fields} (h : ThinnedFields deleted fs gs)
    {key : String} {w : Json} (hw : (key, w) ∈ gs) : ∃ v, (key, v) ∈ fs ∧ Thinned v w := by
  induction fs generalizing gs with
  | nil =>
    cases h
    cases hw
  | cons entry fs ih =>
    cases h with
    | drop v hd h =>
      obtain ⟨v', hv', ht⟩ := ih h hw
      exact ⟨v', List.mem_cons_of_mem _ hv', ht⟩
    | keep hd hv h =>
      rcases List.mem_cons.mp hw with he | hw
      · cases he
        exact ⟨_, List.mem_cons_self .., hv⟩
      · obtain ⟨v', hv', ht⟩ := ih h hw
        exact ⟨v', List.mem_cons_of_mem _ hv', ht⟩

namespace Thinned

variable {j j' : Json}

/-- A key that is left was there before. -/
theorem valueOf_of_hasKey (h : Thinned j j') {key : String} (hk : j'.HasKey key) :
    j.HasKey key ∧ Thinned (j.valueOf key) (j'.valueOf key) := by
  cases h with
  | same => exact ⟨hk, same _⟩
  | arr _ =>
    obtain ⟨_, _, he, -⟩ := hk
    cases he
  | obj deleted hf =>
    obtain ⟨_, w, he, hw⟩ := hk
    cases he
    obtain ⟨-, v, hv, ht⟩ := hf.lookup hw
    refine ⟨⟨_, v, rfl, hv⟩, ?_⟩
    rwa [valueOf_obj, valueOf_obj, Fields.get, Fields.get, hv, hw]

theorem valueOf (h : Thinned j j') (key : String) :
    j'.valueOf key = .null ∨ Thinned (j.valueOf key) (j'.valueOf key) := by
  by_cases hn : j'.valueOf key = .null
  · exact .inl hn
  · exact .inr (h.valueOf_of_hasKey (Json.hasKey_of_ne_null hn)).2

theorem along_null (path : List String) : Json.null.along path = .null := by
  induction path with
  | nil => rfl
  | cons key path ih => exact ih

theorem along (h : Thinned j j') (path : List String) :
    j'.along path = .null ∨ Thinned (j.along path) (j'.along path) := by
  induction path generalizing j j' with
  | nil => exact .inr h
  | cons key path ih =>
    rcases h.valueOf key with hn | ht
    · rw [along_cons, hn, along_null]
      exact .inl rfl
    · exact ih ht

end Thinned

/-! ## Sorts that last -/

/-- A value of this sort keeps it when keys are deleted. -/
def Lasts (sort : Json → Prop) : Prop := ∀ j j', Thinned j j' → sort j → sort j'

@[simp] theorem lasts_text : Lasts IsText := by
  intro j j' h hs
  cases h with
  | same => exact hs
  | _ => cases hs

@[simp] theorem lasts_number : Lasts IsNumber := by
  intro j j' h hs
  cases h with
  | same => exact hs
  | _ => cases hs

@[simp] theorem lasts_expression : Lasts IsExpression := fun j j' h hs => hs.imp (lasts_text j j' h) (lasts_number j j' h)

@[simp] theorem lasts_mode : Lasts IsMode := by
  intro j j' h hs
  cases h with
  | same => exact hs
  | _ => cases hs

@[simp] theorem lasts_object : Lasts IsObject := by
  intro j j' h hs
  cases h with
  | same => exact hs
  | arr _ =>
    obtain ⟨_, he⟩ := hs
    cases he
  | obj _ _ => exact ⟨_, rfl⟩

@[simp] theorem lasts_nullOr {sort : Json → Prop} (hs : Lasts sort) : Lasts (NullOr sort) := by
  intro j j' h hj
  refine hj.imp (fun hn => ?_) (hs j j' h)
  subst hn
  cases h
  rfl

/-- What is left of a value that is not truthy is not truthy either. -/
theorem Thinned.truthy {j j' : Json} (h : Thinned j j') (ht : j'.truthy = true) : j.truthy = true := by
  cases h with
  | same => exact ht
  | arr hs =>
    cases hs with
    | nil => cases ht
    | cons _ _ => rfl
  | obj deleted hs =>
    cases hs with
    | nil => cases ht
    | _ => rfl

@[simp] theorem lasts_falsyOr {sort : Json → Prop} (hs : Lasts sort) : Lasts (FalsyOr sort) :=
  fun j j' h hj ht => hs j j' h (hj (h.truthy ht))

/-- What is asked of all members lasts if it lasts for each pair of members of lists. -/
theorem Thinned.yields {sort : Json → Prop} {j j' : Json} (h : Thinned j j')
    (hs : ∀ (i : Nat) (a b : Json), j.elements[i]? = some a → j'.elements[i]? = some b → Thinned a b → sort a → sort b)
    (hy : Yields sort j) : Yields sort j' := by
  cases h with
  | same => exact hy
  | arr hm =>
    obtain ⟨members, he, hsort⟩ := hy
    cases he
    refine ⟨_, rfl, fun b hb => ?_⟩
    obtain ⟨i, hi, rfl⟩ := List.mem_iff_getElem.mp hb
    have hi' := hm.length_eq ▸ hi
    exact hs i _ _ (List.getElem?_eq_getElem hi') (List.getElem?_eq_getElem hi) (hm.get hi' hi)
      (hsort _ (List.getElem_mem hi'))
  | obj deleted hf =>
    obtain ⟨members, he, hsort⟩ := hy
    cases he
    refine ⟨_, rfl, fun b hb => ?_⟩
    obtain ⟨⟨key, w⟩, hw, rfl⟩ := List.mem_map.mp hb
    obtain ⟨v, hv, -⟩ := hf.mem hw
    exact hsort _ (List.mem_map_of_mem hv)

@[simp] theorem lasts_yields {sort : Json → Prop} (hs : Lasts sort) : Lasts (Yields sort) :=
  fun _ _ h hy => h.yields (fun _ a b _ _ hab => hs a b hab) hy

/-! ## Demands -/

/-- A demand that null meets and that stays met where it is met. -/
def Demand.Optional (d : Demand) : Prop := d.sort .null ∧ Lasts d.sort

@[simp] theorem Demand.optional_nullOr {path : List String} {sort : Json → Prop} (hs : Lasts sort) :
    Demand.Optional ⟨path, NullOr sort⟩ := ⟨nullOr_null, lasts_nullOr hs⟩

@[simp] theorem Demand.optional_falsyOr {path : List String} {sort : Json → Prop} (hs : Lasts sort) :
    Demand.Optional ⟨path, FalsyOr sort⟩ := ⟨falsyOr_null, lasts_falsyOr hs⟩

@[simp] theorem Demand.optional_mode {path : List String} : Demand.Optional ⟨path, IsMode⟩ := ⟨trivial, lasts_mode⟩

theorem Thinned.sort_along {j j' : Json} (h : Thinned j j') {d : Demand} (hd : d.Optional)
    (hs : d.sort (j.along d.path)) : d.sort (j'.along d.path) := by
  rcases h.along d.path with hn | ht
  · rw [hn]
    exact hd.1
  · exact hd.2 _ _ ht hs

theorem Thinned.meets {j j' : Json} {demands : List Demand} (hd : ∀ d ∈ demands, d.Optional) (h : Thinned j j')
    (hm : j.Meets demands) : j'.Meets demands :=
  fun d hdm => h.sort_along (hd d hdm) (hm d hdm)

end GraphScript
