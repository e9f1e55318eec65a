/-
  GraphScript.Proofs.Faults — when work that may fail succeeds, and how it fails.

  A chain succeeds when each part of it does, and a list when each of its members does; the fault of
  a list is that of its first member that fails.

  `Succeeds`, `Ensures` and `FailsWith` say one part each of what a piece of work does: that it has
  a result, what its result is like, and what its faults are like. All go through chains part by
  part.
-/
import GraphScript.Fault
import Mathlib.Data.List.Forall2

namespace GraphScript.Faults

variable {ε α β γ : Type}

@[simp] theorem pure_eq (a : α) : (pure a : Except ε α) = .ok a := rfl

@[simp] theorem throw_eq (e : ε) : (throw e : Except ε α) = .error e := rfl

theorem bind_eq_ok {x : Except ε α} {f : α → Except ε β} {b : β} :
    x >>= f = .ok b ↔ ∃ a, x = .ok a ∧ f a = .ok b := by
  cases x with
  | error e => exact ⟨fun h => (nomatch h), fun ⟨_, h, _⟩ => (nomatch h)⟩
  | ok a => exact ⟨fun h => ⟨a, rfl, h⟩, fun ⟨_, h, hf⟩ => by cases h; exact hf⟩

theorem map_eq_ok {x : Except ε α} {f : α → β} {b : β} : x.map f = .ok b ↔ ∃ a, x = .ok a ∧ f a = b := by
  cases x <;> simp [Except.map]

theorem toOption_eq_some {x : Except ε α} {a : α} : x.toOption = some a ↔ x = .ok a := by
  cases x <;> simp [Except.toOption]

@[simp] theorem ok_bind (a : α) (f : α → Except ε β) : (Except.ok a >>= f) = f a := rfl

@[simp] theorem error_bind (e : ε) (f : α → Except ε β) : (Except.error e >>= f) = .error e := rfl

theorem mapped_bind (x : Except ε α) (f : α → β) (g : β → Except ε γ) : x.map f >>= g = x >>= fun a => g (f a) := by
  cases x <;> rfl

/-! ## Lists -/

theorem mapM_eq_ok {f : α → Except ε β} {xs : List α} {ys : List β} :
    xs.mapM f = .ok ys ↔ List.Forall₂ (fun x y => f x = .ok y) xs ys := by
  induction xs generalizing ys with
  | nil => simp [eq_comm]
  | cons x xs ih =>
    simp only [List.mapM_cons, bind_eq_ok, ih, pure_eq, Except.ok.injEq]
    constructor
    · intro w
      obtain ⟨y, hy, ys, hys, rfl⟩ := w
      exact .cons hy hys
    · rintro (_ | ⟨hy, hys⟩)
      exact ⟨_, hy, _, hys, rfl⟩

/-- Where a property holds of the whole list, it goes along with each member. -/
theorem forall₂_of_mapM {f : α → Except ε β} {P : α → Prop} {xs : List α} {ys : List β} (hP : ∀ x ∈ xs, P x)
    (h : xs.mapM f = .ok ys) : List.Forall₂ (fun x y => P x ∧ f x = .ok y) xs ys := by
  rw [mapM_eq_ok] at h
  induction h with
  | nil => exact .nil
  | cons hy _ ih => exact .cons ⟨hP _ (List.mem_cons_self ..), hy⟩ (ih fun x hx => hP x (List.mem_cons_of_mem _ hx))

/-- Lists that go along member by member: each member of the second has its partner in the first. -/
theorem exists_partner {R : α → β → Prop} {xs : List α} {ys : List β} (h : List.Forall₂ R xs ys) :
    ∀ y ∈ ys, ∃ x ∈ xs, R x y := by
  induction h with
  | nil => exact nofun
  | cons hxy _ ih =>
    intro y hy
    rcases List.mem_cons.mp hy with rfl | hy
    · exact ⟨_, List.mem_cons_self .., hxy⟩
    · obtain ⟨x, hxm, hx⟩ := ih y hy
      exact ⟨x, List.mem_cons_of_mem _ hxm, hx⟩

/-- Every member of the result comes from a member of the list. -/
theorem mem_of_mapM {f : α → Except ε β} {xs : List α} {ys : List β} (h : xs.mapM f = .ok ys) :
    ∀ y ∈ ys, ∃ x ∈ xs, f x = .ok y := exists_partner (mapM_eq_ok.mp h)

/-- Every member of the list has its result in the list of results. -/
theorem result_of_mapM {f : α → Except ε β} {xs : List α} {ys : List β} (h : xs.mapM f = .ok ys) :
    ∀ x ∈ xs, ∃ y ∈ ys, f x = .ok y := exists_partner (mapM_eq_ok.mp h).flip

theorem mapM_of_forall {f : α → Except ε β} {xs : List α} (h : ∀ x ∈ xs, ∃ y, f x = .ok y) :
    ∃ ys, xs.mapM f = .ok ys := by
  induction xs with
  | nil => exact ⟨[], rfl⟩
  | cons x xs ih =>
    obtain ⟨y, hy⟩ := h x (List.mem_cons_self ..)
    obtain ⟨ys, hys⟩ := ih fun a ha => h a (List.mem_cons_of_mem _ ha)
    exact ⟨y :: ys, by rw [List.mapM_cons, hy, hys]; rfl⟩

theorem mapM_congr {f g : α → Except ε β} {xs : List α} (h : ∀ x ∈ xs, f x = g x) : xs.mapM f = xs.mapM g := by
  induction xs with
  | nil => rfl
  | cons x xs ih =>
    rw [List.mapM_cons, List.mapM_cons, h x (List.mem_cons_self ..), ih fun a ha => h a (List.mem_cons_of_mem _ ha)]

theorem mapM_ok {f : α → Except ε β} {g : α → β} (h : ∀ a, f a = .ok (g a)) (xs : List α) :
    xs.mapM f = .ok (xs.map g) := by
  induction xs with
  | nil => rfl
  | cons x xs ih => simp [List.mapM_cons, h, ih]

theorem forM_of_forall {f : α → Except ε Unit} {xs : List α} (h : ∀ x ∈ xs, f x = .ok ()) : xs.forM f = .ok () := by
  induction xs with
  | nil => rfl
  | cons x xs ih =>
    show (f x >>= fun _ => xs.forM f) = _
    rw [h x (List.mem_cons_self ..), ok_bind, ih fun a ha => h a (List.mem_cons_of_mem _ ha)]

/-! ## Success -/

/-- The work has a result. -/
def Succeeds (x : Except ε α) : Prop := ∃ a, x = .ok a

@[simp] theorem succeeds_ok (a : α) : Succeeds (.ok a : Except ε α) := ⟨a, rfl⟩

@[simp] theorem not_succeeds_error (e : ε) : ¬ Succeeds (.error e : Except ε α) := nofun

@[simp] theorem succeeds_map {x : Except ε α} {f : α → β} : Succeeds (x.map f) ↔ Succeeds x := by
  cases x <;> simp [Except.map]

theorem succeeds_bind {x : Except ε α} {f : α → Except ε β} :
    Succeeds (x >>= f) ↔ Succeeds x ∧ ∀ a, x = .ok a → Succeeds (f a) := by
  cases x <;> simp

/-- Of two parts that do not depend on each other. -/
theorem succeeds_and_forall {x : Except ε α} {P : Prop} : (Succeeds x ∧ ∀ a, x = .ok a → P) ↔ Succeeds x ∧ P := by
  constructor
  · rintro ⟨⟨a, ha⟩, h⟩
    exact ⟨⟨a, ha⟩, h a ha⟩
  · exact fun h => ⟨h.1, fun _ _ => h.2⟩

theorem succeeds_mapM {f : α → Except ε β} {xs : List α} : Succeeds (xs.mapM f) ↔ ∀ x ∈ xs, Succeeds (f x) := by
  constructor
  · rintro ⟨ys, h⟩
    rw [mapM_eq_ok] at h
    induction h with
    | nil => exact fun x hx => absurd hx List.not_mem_nil
    | cons hy _ ih => exact List.forall_mem_cons.mpr ⟨⟨_, hy⟩, ih⟩
  · exact mapM_of_forall

/-! ## Results -/

/-- If the work has a result, it is like this. -/
def Ensures (P : α → Prop) (x : Except ε α) : Prop := ∀ a, x = .ok a → P a

theorem Ensures.of_ok {P : α → Prop} {x : Except ε α} {a : α} (h : Ensures P x) (ha : x = .ok a) : P a := h a ha

@[simp] theorem ensures_ok {P : α → Prop} {a : α} : Ensures P (.ok a : Except ε α) ↔ P a := by simp [Ensures]

@[simp] theorem ensures_error {P : α → Prop} (e : ε) : Ensures P (.error e : Except ε α) := nofun

@[simp] theorem ensures_map {P : β → Prop} {x : Except ε α} {f : α → β} :
    Ensures P (x.map f) ↔ Ensures (fun a => P (f a)) x := by
  cases x <;> simp [Except.map]

theorem ensures_bind {P : β → Prop} {x : Except ε α} {f : α → Except ε β} :
    Ensures P (x >>= f) ↔ ∀ a, x = .ok a → Ensures P (f a) := by
  cases x <;> simp

/-- What holds of all results of a list, read off the list. -/
theorem forall_mem_of_mapM {P : β → Prop} {Q : α → Prop} {f : α → Except ε β} {xs : List α} {ys : List β}
    (hf : ∀ x, Ensures (fun y => P y ↔ Q x) (f x)) (h : xs.mapM f = .ok ys) : (∀ y ∈ ys, P y) ↔ ∀ x ∈ xs, Q x := by
  rw [mapM_eq_ok] at h
  induction h with
  | nil => simp
  | cons hy _ ih => rw [List.forall_mem_cons, List.forall_mem_cons, (hf _).of_ok hy, ih]

/-! ## Faults -/

/-- If the work fails, it is with one of these faults. -/
def FailsWith (faults : ε → Prop) (x : Except ε α) : Prop := ∀ e, x = .error e → faults e

variable {faults : ε → Prop}

@[simp] theorem failsWith_ok (a : α) : FailsWith faults (.ok a : Except ε α) := nofun

@[simp] theorem failsWith_error {e : ε} : FailsWith faults (.error e : Except ε α) ↔ faults e := by
  simp [FailsWith]

@[simp] theorem failsWith_map {x : Except ε α} {f : α → β} : FailsWith faults (x.map f) ↔ FailsWith faults x := by
  cases x <;> simp [Except.map]

theorem failsWith_bind {x : Except ε α} {f : α → Except ε β} :
    FailsWith faults (x >>= f) ↔ FailsWith faults x ∧ ∀ a, x = .ok a → FailsWith faults (f a) := by
  cases x <;> simp

theorem FailsWith.mapM {f : α → Except ε β} {xs : List α} (h : ∀ x ∈ xs, FailsWith faults (f x)) :
    FailsWith faults (xs.mapM f) := by
  induction xs with
  | nil => exact failsWith_ok _
  | cons x xs ih =>
    have hxs := ih fun a ha => h a (List.mem_cons_of_mem _ ha)
    rw [List.mapM_cons, failsWith_bind]
    refine ⟨h x (List.mem_cons_self ..), fun y _ => ?_⟩
    exact failsWith_bind.mpr ⟨hxs, fun ys _ => failsWith_ok _⟩

theorem FailsWith.mono {others : ε → Prop} {x : Except ε α} (h : FailsWith faults x) (hf : ∀ e, faults e → others e) :
    FailsWith others x := fun e he => hf e (h e he)

/-! ## Two pieces of work -/

/-- Both fail with the same fault, or both have results, which go along. -/
inductive Related (R : α → β → Prop) : Except ε α → Except ε β → Prop where
  | ok {a : α} {b : β} (along : R a b) : Related R (.ok a) (.ok b)
  | error (e : ε) : Related R (.error e) (.error e)

namespace Related

variable {δ : Type} {R : α → β → Prop} {S : γ → δ → Prop}

/-- Work goes along with itself where its result does. -/
theorem of_ensures {R : α → α → Prop} {x : Except ε α} (h : Ensures (fun a => R a a) x) : Related R x x := by
  cases x with
  | ok a => exact .ok (h a rfl)
  | error e => exact .error e

theorem refl {R : α → α → Prop} (hR : ∀ a, R a a) (x : Except ε α) : Related R x x := of_ensures fun a _ => hR a

theorem eq {x y : Except ε α} (h : Related Eq x y) : x = y := by
  cases h with
  | ok h => rw [h]
  | error => rfl

theorem imp {T : α → β → Prop} {x : Except ε α} {y : Except ε β} (h : Related R x y) (hRT : ∀ a b, R a b → T a b) :
    Related T x y := by
  cases h with
  | ok h => exact .ok (hRT _ _ h)
  | error e => exact .error e

/-- Where a result determines what goes along with it. -/
theorem eq_map {x : Except ε α} {y : Except ε β} {f : α → β} (h : Related R x y)
    (hf : ∀ a b, x = .ok a → R a b → b = f a) : y = x.map f := by
  cases h with
  | ok h => rw [hf _ _ rfl h, Except.map]
  | error => rfl

theorem bind {x : Except ε α} {y : Except ε β} (h : Related R x y) {f : α → Except ε γ} {g : β → Except ε δ}
    (hf : ∀ a b, R a b → Related S (f a) (g b)) : Related S (x >>= f) (y >>= g) := by
  cases h with
  | ok h => exact hf _ _ h
  | error e => exact .error e

/-- Behind a part that they share. -/
theorem behind (x : Except ε α) {f : α → Except ε γ} {g : α → Except ε δ} (hf : ∀ a, Related S (f a) (g a)) :
    Related S (x >>= f) (x >>= g) := by
  cases x with
  | ok a => exact hf a
  | error e => exact .error e

/-- Two ways of working on one list. -/
theorem mapM {f : α → Except ε γ} {g : α → Except ε δ} {xs : List α} (hf : ∀ a ∈ xs, Related S (f a) (g a)) :
    Related (List.Forall₂ S) (xs.mapM f) (xs.mapM g) := by
  induction xs with
  | nil => exact .ok .nil
  | cons x xs ih =>
    have hxs := ih fun a ha => hf a (List.mem_cons_of_mem _ ha)
    rw [List.mapM_cons, List.mapM_cons]
    exact (hf x (List.mem_cons_self ..)).bind fun _ _ h => hxs.bind fun _ _ hs => .ok (.cons h hs)

end Related

end GraphScript.Faults
