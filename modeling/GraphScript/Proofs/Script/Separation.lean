/-
  GraphScript.Proofs.Script.Separation — texts that can be told apart from what stands behind them.

  No part of a script says how long it is. A kind of text is separable when one text followed by an
  admissible rest is another one followed by an admissible rest only if both texts mean the same and
  the rests are equal (`Separable`). Which rests are admissible depends on the kind: a literal must
  not be followed by its mark, a number not by a digit.

  - `append_eq_of_class`: what stands up to the first character outside a class.
  - `Separable.chained`, `Separable.joined`: lists of separable texts between separators.
-/
import GraphScript.Text.Quoted
import Mathlib.Data.List.Forall2

namespace GraphScript

variable {α β : Type}

/-- Texts written for values of one meaning can be told from texts of another, and from what follows them. -/
def Separable (follow : List Char → Prop) (writes : α → String → Prop) (meaning : α → β) : Prop :=
  ∀ ⦃a b t u r s⦄, writes a t → writes b u → follow r → follow s → t.toList ++ r = u.toList ++ s →
    meaning a = meaning b ∧ r = s

/-- Of texts that say everything, equal ones are written for equal values. -/
theorem Separable.eq {follow : List Char → Prop} {writes : α → String → Prop} (hw : Separable follow writes id)
    {a b : α} {t u : String} {r s : List Char} (ha : writes a t) (hb : writes b u) (hr : follow r) (hs : follow s)
    (h : t.toList ++ r = u.toList ++ s) : a = b ∧ r = s := hw ha hb hr hs h

theorem Separable.same_text {follow : List Char → Prop} {writes : α → String → Prop} {meaning : α → β}
    (hw : Separable follow writes meaning) (hend : follow []) {a b : α} {t : String} (ha : writes a t) (hb : writes b t) :
    meaning a = meaning b := (hw ha hb hend hend rfl).1

/-- The first character, if there is one, is of this class. -/
def Opens (p : Char → Bool) (r : List Char) : Prop := ∀ c ∈ r.head?, p c = true

instance (p : Char → Bool) (r : List Char) : Decidable (Opens p r) :=
  decidable_of_iff (r.head?.all p = true) (by cases r <;> simp [Opens])

@[simp] theorem opens_nil (p : Char → Bool) : Opens p [] := by simp [Opens]

@[simp] theorem opens_cons {p : Char → Bool} {c : Char} {r : List Char} : Opens p (c :: r) ↔ p c = true := by
  simp [Opens]

theorem Opens.mono {p q : Char → Bool} {r : List Char} (h : Opens p r) (hpq : ∀ c, p c = true → q c = true) :
    Opens q r := fun c hc => hpq c (h c hc)

/-- What holds of all the characters that may come first holds of the first one. -/
theorem Opens.avoids {p : Char → Bool} {cs r : List Char} (h : Opens (· ∈ cs) r) (hp : cs.all p = true) : Opens p r :=
  h.mono fun c hc => List.all_eq_true.mp hp c (by simpa using hc)

/-- What stands before the first character outside a class is determined. -/
theorem append_eq_of_class {p : Char → Bool} {t u r s : List Char} (ht : ∀ c ∈ t, p c = true)
    (hu : ∀ c ∈ u, p c = true) (hr : Opens (!p ·) r) (hs : Opens (!p ·) s) (h : t ++ r = u ++ s) : t = u ∧ r = s := by
  induction t generalizing u with
  | nil =>
    cases u with
    | nil => exact ⟨rfl, h⟩
    | cons d u =>
      have hd := hu d (by simp)
      rw [List.nil_append] at h
      subst h
      simp [hd] at hr
  | cons c t ih =>
    have hc := ht c (by simp)
    cases u with
    | nil =>
      rw [List.nil_append] at h
      subst h
      simp [hc] at hs
    | cons d u =>
      rw [List.cons_append, List.cons_append, List.cons.injEq] at h
      obtain ⟨rfl, h⟩ := h
      obtain ⟨rfl, hrs⟩ := ih (fun x hx => ht x (by simp [hx])) (fun x hx => hu x (by simp [hx])) h
      exact ⟨rfl, hrs⟩

/-! ## What may be missing -/

/-- Nothing for what is missing. -/
def Optionally (writes : α → String → Prop) : Option α → String → Prop
  | none, t => "" = t
  | some a, t => writes a t

theorem Separable.optionally {follow : List Char → Prop} {writes : α → String → Prop} {meaning : α → β}
    (hw : Separable follow writes meaning) (hfirst : ∀ a t r, writes a t → ¬ follow (t.toList ++ r)) :
    Separable follow (Optionally writes) (Option.map meaning) := by
  intro a b t u r s ha hb hr hs h
  cases a with
  | none =>
    obtain rfl := ha
    cases b with
    | none =>
      obtain rfl := hb
      exact ⟨rfl, h⟩
    | some b =>
      rw [String.toList_empty, List.nil_append] at h
      exact absurd (h ▸ hr) (hfirst b u s hb)
  | some a =>
    cases b with
    | none =>
      obtain rfl := hb
      rw [String.toList_empty, List.nil_append] at h
      exact absurd (h ▸ hs) (hfirst a t r ha)
    | some b =>
      obtain ⟨hab, hrs⟩ := hw ha hb hr hs h
      exact ⟨congrArg some hab, hrs⟩

/-- A text that is written for what is there, and nothing for what is not. -/
theorem Separable.optional {follow : List Char → Prop} {text : α → String}
    (hw : Separable follow (fun a t => text a = t) id) (hfirst : ∀ a r, ¬ follow ((text a).toList ++ r)) :
    Separable follow (fun o t => (Option.map text o).getD "" = t) id := by
  have h := hw.optionally fun a t r (ht : text a = t) => ht ▸ hfirst a r
  have hopt : ∀ {o : Option α} {t}, (o.map text).getD "" = t → Optionally (fun a t => text a = t) o t := by
    intro o t ho
    cases o <;> exact ho
  rw [Option.map_id] at h
  intro a b t u r s ha hb
  exact h (hopt ha) (hopt hb)

/-! ## Lists -/

/-- Each text behind the separator. -/
def Chained (separator : String) (writes : α → String → Prop) (as : List α) (t : String) : Prop :=
  ∃ ts, List.Forall₂ writes as ts ∧ String.join (ts.map (separator ++ ·)) = t

/-- The separator between neighbours. -/
def Joined (separator : String) (writes : α → String → Prop) (as : List α) (t : String) : Prop :=
  ∃ ts, List.Forall₂ writes as ts ∧ Text.joined separator ts = t

/-- A list written with this separator ends where it is seen to: its members may be followed by the separator and by
    what follows the list, and what follows the list is no further member. -/
structure Ends (separator : String) (writes : α → String → Prop) (member list : List Char → Prop) : Prop where
  after : ∀ r, list r → member r
  between : ∀ r, member (separator.toList ++ r)
  stops : ∀ a t r, writes a t → ¬ list (separator.toList ++ (t.toList ++ r))

theorem toList_join_map (separator : String) (ts : List String) :
    (String.join (ts.map (separator ++ ·))).toList = ts.flatMap fun t => separator.toList ++ t.toList := by
  rw [String.toList_join, List.flatMap_map]
  simp only [String.toList_append]

theorem Text.toList_joined_cons (separator t : String) (ts : List String) :
    (Text.joined separator (t :: ts)).toList = t.toList ++ (String.join (ts.map (separator ++ ·))).toList := by
  rw [toList_join_map]
  induction ts generalizing t with
  | nil => simp [Text.joined]
  | cons u ts ih => simp [Text.joined, ih, List.append_assoc]

theorem Text.joined_ne_empty {separator t : String} {ts : List String} (ht : t ≠ "") :
    Text.joined separator (t :: ts) ≠ "" := by
  intro h
  have h := congrArg String.toList h
  rw [toList_joined_cons, String.toList_empty, List.append_eq_nil_iff] at h
  exact ht (String.toList_inj.mp h.1)

/-- A text before a list of texts, with the separator between them where both are there. -/
theorem Text.joined_cons {separator t : String} {ts : List String} (ht : t ≠ "")
    (hts : ∀ u us, ts = u :: us → u ≠ "") :
    t ++ (if t = "" ∨ joined separator ts = "" then "" else separator) ++ joined separator ts =
      joined separator (t :: ts) := by
  cases ts with
  | nil => simp [joined]
  | cons u us =>
    rw [if_neg (not_or.mpr ⟨ht, joined_ne_empty (hts u us rfl)⟩)]
    rfl

section

variable {separator : String} {writes : α → String → Prop} {member list : List Char → Prop} {meaning : α → β}

theorem Ends.opens (h : Ends separator writes member list) {as : List α} {ts : List String} {r : List Char}
    (hr : list r) (hts : List.Forall₂ writes as ts) :
    member ((ts.flatMap fun t => separator.toList ++ t.toList) ++ r) := by
  cases hts with
  | nil => exact h.after r hr
  | cons _ _ =>
    rw [List.flatMap_cons, List.append_assoc, List.append_assoc]
    exact h.between _

theorem Separable.chained (hw : Separable member writes meaning) (he : Ends separator writes member list) :
    Separable list (Chained separator writes) (List.map meaning) := by
  intro as bs _ _ r s wa wb hr hs h
  obtain ⟨ts, ha, rfl⟩ := wa
  obtain ⟨us, hb, rfl⟩ := wb
  rw [toList_join_map, toList_join_map] at h
  induction ha generalizing us bs with
  | nil =>
    cases hb with
    | nil => exact ⟨rfl, by simpa using h⟩
    | @cons b u bs us hu hus =>
      rw [List.flatMap_nil, List.nil_append, List.flatMap_cons, List.append_assoc, List.append_assoc] at h
      exact absurd (h ▸ hr) (he.stops b u _ hu)
  | @cons a t as ts ht hts ih =>
    cases hb with
    | nil =>
      rw [List.flatMap_nil, List.nil_append, List.flatMap_cons, List.append_assoc, List.append_assoc] at h
      exact absurd (h ▸ hs) (he.stops a t _ ht)
    | @cons b u bs us hu hus =>
      simp only [List.flatMap_cons, List.append_assoc] at h
      obtain ⟨hab, h⟩ := hw ht hu (he.opens hr hts) (he.opens hs hus) (List.append_cancel_left h)
      obtain ⟨hm, hrs⟩ := ih us hus h
      exact ⟨by rw [List.map_cons, List.map_cons, hab, hm], hrs⟩

theorem Separable.joined (hw : Separable member writes meaning) (he : Ends separator writes member list)
    (hfirst : ∀ a t r, writes a t → ¬ list (t.toList ++ r)) :
    Separable list (Joined separator writes) (List.map meaning) := by
  intro as bs _ _ r s wa wb hr hs h
  obtain ⟨ts, ha, rfl⟩ := wa
  obtain ⟨us, hb, rfl⟩ := wb
  cases ha with
  | nil =>
    cases hb with
    | nil => exact ⟨rfl, by simpa [Text.joined] using h⟩
    | @cons b u bs us hu hus =>
      rw [Text.toList_joined_cons, List.append_assoc] at h
      simp only [Text.joined, String.toList_empty, List.nil_append] at h
      exact absurd (h ▸ hr) (hfirst b u _ hu)
  | @cons a t as ts ht hts =>
    cases hb with
    | nil =>
      rw [Text.toList_joined_cons, List.append_assoc] at h
      simp only [Text.joined, String.toList_empty, List.nil_append] at h
      exact absurd (h ▸ hs) (hfirst a t _ ht)
    | @cons b u bs us hu hus =>
      rw [Text.toList_joined_cons, Text.toList_joined_cons, List.append_assoc, List.append_assoc] at h
      have hr' := he.opens hr hts
      have hs' := he.opens hs hus
      rw [← toList_join_map] at hr' hs'
      obtain ⟨hab, h⟩ := hw ht hu hr' hs' h
      obtain ⟨hm, hrs⟩ := hw.chained he ⟨ts, hts, rfl⟩ ⟨us, hus, rfl⟩ hr hs h
      exact ⟨by rw [List.map_cons, List.map_cons, hab, hm], hrs⟩

end

end GraphScript
