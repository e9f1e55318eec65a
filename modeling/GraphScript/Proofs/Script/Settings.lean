/-
  GraphScript.Proofs.Script.Settings — a setting is known from its text.

  A setting of axes is a list of named parts. A part ends at a comma or at the end of the line, and
  the parts that are there tell which ones are missing.
-/
import GraphScript.Proofs.Script.Groups

namespace GraphScript

open Faults

/-- A setting without the form of its numbers. -/
def Setting.erased : Setting → Setting
  | .viewport x y => .viewport (x.map (·.spelt)) (y.map (·.spelt))
  | .minorSubdivisions x y => .minorSubdivisions x.spelt y.spelt
  | .axisSteps x y => .axisSteps x.spelt y.spelt
  | s => s

/-- The flags of a setting can stand in a script. -/
def Setting.Plain : Setting → Prop
  | .flags words => ∀ f ∈ words, f ∈ Flag.plain
  | _ => True

/-! ## Parts of axes -/

def axisNames : List String := ["x", "y", "polar"]

/-- What may follow the part of an axis. -/
def AxisEnd : List Char → Prop := Opens (· ∈ [',', '\n'])

@[simp] theorem axisEnd_cons {c : Char} {r : List Char} : AxisEnd (c :: r) ↔ c ∈ [',', '\n'] := by simp [AxisEnd]

theorem AxisEnd.avoids {p : Char → Bool} {r : List Char} (h : AxisEnd r) (hp : [',', '\n'].all p = true) :
    Opens p r := Opens.avoids h hp

/-- Texts of one sort that end where the part of an axis does. -/
def AxisTexts (texts : String → Prop) : Prop := Separable AxisEnd (fun a t => texts a ∧ a = t) id

theorem Separable.axisTexts {γ δ : Type} {follow : List Char → Prop} {writes : γ → String → Prop} {meaning : γ → δ}
    (h : Separable follow writes meaning) (hf : ∀ r, AxisEnd r → follow r) : AxisTexts fun t => ∃ c, writes c t := by
  intro a b _ _ r s wa wb hr hs he
  obtain ⟨⟨c, hc⟩, rfl⟩ := wa
  obtain ⟨⟨d, hd⟩, rfl⟩ := wb
  obtain ⟨-, rfl⟩ := h hc hd (hf r hr) (hf s hs) he
  exact ⟨String.toList_inj.mp (List.append_cancel_right he), rfl⟩

/-- Texts of one class of characters end before a comma and a line break. -/
theorem axisTexts_of_class {texts : String → Prop} (p : Char → Bool) (ht : ∀ t, texts t → t.toList.all p = true)
    (hp : [',', '\n'].all (!p ·) = true) : AxisTexts texts := by
  intro a b _ _ r s wa wb hr hs he
  obtain ⟨ha, rfl⟩ := wa
  obtain ⟨hb, rfl⟩ := wb
  obtain ⟨hab, hrs⟩ := append_eq_of_class (List.all_eq_true.mp (ht a ha)) (List.all_eq_true.mp (ht b hb)) (hr.avoids hp)
    (hs.avoids hp) he
  exact ⟨String.toList_inj.mp hab, hrs⟩

theorem axisScript_eq_ok {kind : Kind} {parts : List (String × Option String)} {t : String}
    (h : axisScript kind parts = .ok t) :
    Text.joined ", " ((present parts).map fun p => p.1 ++ " " ++ p.2) = t := by
  have hpresent : (parts.filterMap fun p => p.2.map fun text => p.1 ++ " " ++ text) =
      (present parts).map fun p => p.1 ++ " " ++ p.2 := by
    simp only [present, List.map_filterMap, Option.map_map, Function.comp_def]
  unfold axisScript at h
  split at h
  · cases h
  · rw [← hpresent]
    exact Except.ok.inj h

/-- The parts of a setting of axes are known from its text, if their own texts are. -/
theorem axisScript_separable {texts : String → Prop} (ht : AxisTexts texts) (names : List String) (hn : names.Nodup)
    (hnames : ∀ n ∈ names, n ∈ axisNames) {k l : Kind} {ps qs : List (String × Option String)} {t u : String}
    {r s : List Char} (hpn : ps.map (·.1) = names) (hqn : qs.map (·.1) = names)
    (hps : ∀ p ∈ ps, ∀ a ∈ p.2, texts a) (hqs : ∀ q ∈ qs, ∀ a ∈ q.2, texts a) (hp : axisScript k ps = .ok t)
    (hq : axisScript l qs = .ok u) (hr : LineEnd r) (hs : LineEnd s) (h : t.toList ++ r = u.toList ++ s) :
    ps = qs ∧ r = s := by
  let writes := fun (p : String × String) (t : String) => (p.1 ∈ axisNames ∧ texts p.2) ∧ p.1 ++ " " ++ p.2 = t
  have hall : ∀ n ∈ axisNames, n.toList.all (·.isAlpha) = true ∧ n.toList.head?.any (· != '\n') = true := by decide
  have hpart : Separable AxisEnd writes id := by
    intro p q _ _ r s wa wb hr hs he
    obtain ⟨n, a⟩ := p
    obtain ⟨m, b⟩ := q
    obtain ⟨⟨hn, ha⟩, rfl⟩ := wa
    obtain ⟨⟨hm, hb⟩, rfl⟩ := wb
    simp only [String.toList_append, List.append_assoc] at he
    obtain ⟨hnm, h1⟩ := append_eq_of_class (List.all_eq_true.mp (hall n hn).1) (List.all_eq_true.mp (hall m hm).1)
      (by simp) (by simp) he
    obtain rfl := String.toList_inj.mp hnm
    obtain ⟨rfl, hrs⟩ := ht.eq ⟨ha, rfl⟩ ⟨hb, rfl⟩ hr hs (List.append_cancel_left h1)
    exact ⟨rfl, hrs⟩
  have he : Ends ", " writes AxisEnd LineEnd :=
    ⟨fun r hr => hr.mono fun c hc => by simp at hc ⊢; exact .inr hc, fun r => by simp, fun _ _ _ _ h => by simp at h⟩
  have hj := hpart.joined he fun p t r hp h => by
    obtain ⟨⟨hn, -⟩, rfl⟩ := hp
    have hh := (hall _ hn).2
    cases hl : p.1.toList with
    | nil => simp [hl] at hh
    | cons c cs =>
      simp only [String.toList_append, hl, List.cons_append, lineEnd_cons] at h
      simp [hl, h] at hh
  rw [List.map_id_fun] at hj
  have hwrites : ∀ {ps : List (String × Option String)}, ps.map (·.1) = names → (∀ p ∈ ps, ∀ a ∈ p.2, texts a) →
      Joined ", " writes (present ps) (Text.joined ", " ((present ps).map fun p => p.1 ++ " " ++ p.2)) := by
    intro ps hpn hps
    refine ⟨_, List.forall₂_map_right_iff.mpr (List.forall₂_same.mpr fun p hp => ⟨?_, rfl⟩), rfl⟩
    obtain ⟨q, hq, hqp⟩ := List.mem_filterMap.mp hp
    obtain ⟨a, ha, rfl⟩ := Option.map_eq_some_iff.mp hqp
    exact ⟨hnames _ (hpn ▸ List.mem_map_of_mem hq), hps q hq a ha⟩
  obtain rfl := axisScript_eq_ok hp
  obtain rfl := axisScript_eq_ok hq
  obtain ⟨hpq, hrs⟩ := hj.eq (hwrites hpn hps) (hwrites hqn hqs) hr hs h
  exact ⟨present_inj (hpn.trans hqn.symm) (hpn ▸ hn) hpq, hrs⟩

/-- The parts of x and y under one reading. -/
theorem axisParts_separable {γ δ : Type} {read : γ → Except Fault (Option String)} {meaning : γ → δ}
    {texts : String → Prop} (ht : AxisTexts texts) (hread : ∀ v a, read v = .ok (some a) → texts a)
    (hmeaning : ∀ v w o, read v = .ok o → read w = .ok o → meaning v = meaning w) (kind : Kind) :
    Separable LineEnd (fun (p : γ × γ) t => (axisParts read p.1 p.2 >>= axisScript kind) = .ok t)
      (fun p => (meaning p.1, meaning p.2)) := by
  intro a b t u r s ha hb hr hs h
  obtain ⟨x, y⟩ := a
  obtain ⟨x', y'⟩ := b
  have hparts : ∀ {x y t}, (axisParts read x y >>= axisScript kind) = .ok t → ∃ tx ty,
      read x = .ok tx ∧ read y = .ok ty ∧ axisScript kind [("x", tx), ("y", ty)] = .ok t := by
    intro x y t h
    simp only [axisParts, bind_eq_ok, pure_eq, Except.ok.injEq] at h
    obtain ⟨_, ⟨tx, hx, ty, hy, rfl⟩, h⟩ := h
    exact ⟨tx, ty, hx, hy, h⟩
  obtain ⟨tx, ty, hx, hy, ha⟩ := hparts ha
  obtain ⟨tx', ty', hx', hy', hb⟩ := hparts hb
  have htexts : ∀ {x y tx ty}, read x = .ok tx → read y = .ok ty →
      ∀ p ∈ [("x", tx), ("y", ty)], ∀ a ∈ p.2, texts a := by
    intro x y tx ty hx hy p hp a ha
    rcases List.mem_cons.mp hp with rfl | hp
    · exact hread x a (hx.trans (congrArg Except.ok ha))
    · obtain rfl := List.mem_singleton.mp hp
      exact hread y a (hy.trans (congrArg Except.ok ha))
  obtain ⟨hp, hrs⟩ := axisScript_separable ht ["x", "y"] (by decide) (by decide) rfl rfl (htexts hx hy)
    (htexts hx' hy') ha hb hr hs h
  simp only [List.cons.injEq, Prod.mk.injEq, true_and, and_true] at hp
  obtain ⟨rfl, rfl⟩ := hp
  exact ⟨Prod.ext (hmeaning x x' tx hx hx') (hmeaning y y' ty hy hy'), hrs⟩

/-- Settings of x and y that are known from their texts, up to the form of their numbers. -/
def OfAxes {γ : Type} (setting : γ → γ → Setting) : Prop :=
  Separable LineEnd (fun (p : γ × γ) t => (setting p.1 p.2).body = .ok t) fun p => (setting p.1 p.2).erased

/-- They are where each of the two is known from its own text. -/
theorem ofAxes_of_parts {γ δ : Type} {read : γ → Except Fault (Option String)} {meaning : γ → δ}
    {texts : String → Prop} (ht : AxisTexts texts) (hread : ∀ v a, read v = .ok (some a) → texts a)
    (hmeaning : ∀ v w o, read v = .ok o → read w = .ok o → meaning v = meaning w) {setting : γ → γ → Setting}
    (kind : Kind) (erased : δ → δ → Setting)
    (hbody : ∀ v w, (setting v w).body = (axisParts read v w >>= axisScript kind))
    (herased : ∀ v w, (setting v w).erased = erased (meaning v) (meaning w)) : OfAxes setting := by
  intro a b t u r s ha hb hr hs h
  rw [hbody] at ha hb
  obtain ⟨hmeant, hrs⟩ := axisParts_separable ht hread hmeaning kind ha hb hr hs h
  obtain ⟨hx, hy⟩ := Prod.mk.inj hmeant
  refine ⟨?_, hrs⟩
  dsimp only
  rw [herased, herased, hx, hy]

/-! ## Texts of axes -/

theorem number_axisTexts : AxisTexts fun t => ∃ j, Json.numberScript j = .ok t :=
  Json.number_separable.axisTexts fun _ hr => hr.avoids (by decide)

theorem string_axisTexts : AxisTexts fun t => ∃ j, Json.stringScript j = .ok t :=
  Json.string_separable.axisTexts fun _ hr => hr.avoids (by decide)

theorem interval_axisTexts : AxisTexts fun t => ∃ i, NumberInterval.script i = .ok t :=
  NumberInterval.separable.axisTexts fun _ _ => trivial

theorem arrow_axisTexts : AxisTexts fun t => ∃ m, ArrowMode.script m = t := by
  refine axisTexts_of_class (· ∈ ['-', '<', '>']) ?_ (by decide)
  intro _ w
  obtain ⟨m, rfl⟩ := w
  cases m <;> decide

theorem visibility_axisTexts : AxisTexts fun t => ∃ v, Visibility.word v = t := by
  refine axisTexts_of_class Char.isAlpha ?_ (by decide)
  intro _ w
  obtain ⟨v, rfl⟩ := w
  cases v <;> decide

/-- A value that may be missing is read as its text. -/
theorem present_text {f : Json → Except Fault String} {v : Json} {a : String}
    (h : v.present f = .ok (some a)) : ∃ j, f j = .ok a := by
  rcases Json.present_eq_ok.mp h with ⟨-, h⟩ | ⟨-, b, hb, h⟩
  · cases h
  · cases h
    exact ⟨v, hb⟩

theorem present_meaning {δ : Type} {f : Json → Except Fault String} {meaning : Json → δ}
    (hf : ∀ v w a, f v = .ok a → f w = .ok a → meaning v = meaning w) (v w : Json) (o : Option String)
    (hv : v.present f = .ok o) (hw : w.present f = .ok o) : meaning v = meaning w := by
  rcases Json.present_eq_ok.mp hv with ⟨rfl, h⟩ | ⟨-, a, ha, h⟩ <;>
    rcases Json.present_eq_ok.mp hw with ⟨rfl, h'⟩ | ⟨-, b, hb, h'⟩
  · rfl
  · simp [← h] at h'
  · simp [← h] at h'
  · obtain rfl : a = b := Option.some.inj (h.trans h'.symm)
    exact hf v w a ha hb

theorem spelt_of_numberScript (v w : Json) (a : String) (hv : v.numberScript = .ok a) (hw : w.numberScript = .ok a) :
    v.spelt = w.spelt := by
  rw [Json.spelt, Json.spelt, hv, hw]

theorem eq_of_stringScript (v w : Json) (a : String) (hv : v.stringScript = .ok a) (hw : w.stringScript = .ok a) :
    v = w := Json.string_separable.same_text (opens_nil _) hv hw

/-! ## Settings -/

theorem seed_separable : Separable LineEnd (fun v t => Json.stringScript v = .ok t) id := by
  have havoid : ∀ {r}, LineEnd r → Opens (· != '"') r := fun hr => hr.mono fun c hc => by
    rw [beq_iff_eq] at hc
    simp [hc]
  intro a b t u r s ha hb hr hs h
  exact Json.string_separable ha hb (havoid hr) (havoid hs) h

theorem flags_separable : Separable LineEnd
    (fun (fs : List Flag) t => (∀ f ∈ fs, f ∈ Flag.plain) ∧ (fs.mapM Flag.script).map (Text.joined ", ") = .ok t) id := by
  have he : Ends ", " (fun f t => f ∈ Flag.plain ∧ Flag.script f = .ok t) (Opens (!isWordChar ·)) LineEnd := by
    refine ⟨fun r hr => hr.mono fun c hc => ?_, fun r => by simp; decide, fun _ _ _ _ h => by simp at h⟩
    rw [beq_iff_eq] at hc
    rw [hc]
    decide
  have hj := Flag.separable.joined he fun f t r hf h => by
    obtain ⟨c, hc, ha⟩ := (Flag.plain_text hf.1 hf.2).2
    rw [List.eq_cons_of_mem_head? hc, List.cons_append, lineEnd_cons] at h
    rw [h] at ha
    revert ha
    decide
  rw [List.map_id_fun] at hj
  have hjoined : ∀ {fs : List Flag} {t}, (∀ f ∈ fs, f ∈ Flag.plain) →
      (fs.mapM Flag.script).map (Text.joined ", ") = .ok t →
      Joined ", " (fun f t => f ∈ Flag.plain ∧ Flag.script f = .ok t) fs t := by
    intro fs t hp h
    obtain ⟨ts, hts, rfl⟩ := map_eq_ok.mp h
    exact ⟨ts, forall₂_of_mapM hp hts, rfl⟩
  intro a b t u r s wa wb hr hs h
  obtain ⟨hpa, ha⟩ := wa
  obtain ⟨hpb, hb⟩ := wb
  exact hj (hjoined hpa ha) (hjoined hpb hb) hr hs h

theorem arrowMode_script_injective : Function.Injective ArrowMode.script := by
  intro a b h
  cases a <;> cases b <;> first | rfl | exact absurd h (by decide)

theorem visibility_word_injective : Function.Injective Visibility.word := by
  intro a b h
  cases a <;> cases b <;> first | rfl | exact absurd h (by decide)

/-- A reading that never fails. -/
def known {γ : Type} (f : γ → String) (v : Option γ) : Except Fault (Option String) := .ok (v.map f)

theorem known_meaning {γ : Type} {f : γ → String} (hf : Function.Injective f) (v w : Option γ) (o : Option String)
    (hv : known f v = .ok o) (hw : known f w = .ok o) : id v = id w :=
  Option.map_injective hf (Except.ok.inj (hv.trans hw.symm))

theorem known_text {γ : Type} {f : γ → String} (v : Option γ) (a : String) (h : known f v = .ok (some a)) :
    ∃ c, f c = a := by
  obtain ⟨c, -, hc⟩ := Option.map_eq_some_iff.mp (Except.ok.inj h)
  exact ⟨c, hc⟩

def intervalPart : Option NumberInterval → Except Fault (Option String)
  | none => .ok none
  | some i => i.script.map some

theorem intervalPart_text (v : Option NumberInterval) (a : String) (h : intervalPart v = .ok (some a)) :
    ∃ i, NumberInterval.script i = .ok a := by
  cases v with
  | none => cases h
  | some i =>
    obtain ⟨b, hb, hba⟩ := map_eq_ok.mp h
    cases hba
    exact ⟨i, hb⟩

theorem intervalPart_meaning (v w : Option NumberInterval) (o : Option String) (hv : intervalPart v = .ok o)
    (hw : intervalPart w = .ok o) : v.map NumberInterval.spelt = w.map NumberInterval.spelt := by
  cases v with
  | none =>
    obtain rfl := Except.ok.inj hv
    cases w with
    | none => rfl
    | some j =>
      obtain ⟨b, -, hb⟩ := map_eq_ok.mp hw
      cases hb
  | some i =>
    obtain ⟨a, ha, rfl⟩ := map_eq_ok.mp hv
    cases w with
    | none => cases hw
    | some j =>
      obtain ⟨b, hb, hba⟩ := map_eq_ok.mp hw
      cases hba
      exact congrArg some (NumberInterval.separable.same_text trivial ha hb)

/-! ## Settings of x and y -/

theorem viewport_separable : OfAxes Setting.viewport :=
  ofAxes_of_parts interval_axisTexts intervalPart_text intervalPart_meaning .viewport Setting.viewport
    (fun _ _ => rfl) fun _ _ => rfl

theorem minorSubdivisions_separable : OfAxes Setting.minorSubdivisions :=
  ofAxes_of_parts number_axisTexts (fun _ _ => present_text) (present_meaning spelt_of_numberScript)
    .minorSubdivisions Setting.minorSubdivisions (fun _ _ => rfl) fun _ _ => rfl

theorem axisSteps_separable : OfAxes Setting.axisSteps :=
  ofAxes_of_parts number_axisTexts (fun _ _ => present_text) (present_meaning spelt_of_numberScript) .axisSteps
    Setting.axisSteps (fun _ _ => rfl) fun _ _ => rfl

theorem axisArrows_separable : OfAxes Setting.axisArrows :=
  ofAxes_of_parts arrow_axisTexts known_text (known_meaning arrowMode_script_injective) .axisArrows
    Setting.axisArrows (fun _ _ => rfl) fun _ _ => rfl

theorem axisLabels_separable : OfAxes Setting.axisLabels :=
  ofAxes_of_parts string_axisTexts (fun _ _ => present_text) (present_meaning eq_of_stringScript) .axisLabels
    Setting.axisLabels (fun _ _ => rfl) fun _ _ => rfl

theorem axes_separable : OfAxes Setting.axes :=
  ofAxes_of_parts visibility_axisTexts known_text (known_meaning visibility_word_injective) .axes Setting.axes
    (fun _ _ => rfl) fun _ _ => rfl

/-! ## Numbers -/

theorem numbers_separable : Separable LineEnd (fun (v : Option Visibility × Option Visibility × Option Visibility) t =>
    (Setting.axisNumbers v.1 v.2.1 v.2.2).body = .ok t) id := by
  intro a b t u r s ha hb hr hs h
  obtain ⟨x, y, z⟩ := a
  obtain ⟨x', y', z'⟩ := b
  have htexts : ∀ x y z : Option Visibility, ∀ p ∈ [("x", x.map Visibility.word), ("y", y.map Visibility.word),
      ("polar", z.map Visibility.word)], ∀ a ∈ p.2, ∃ v, Visibility.word v = a := by
    intro x y z p hp a ha
    have hword : ∀ v : Option Visibility, p.2 = v.map Visibility.word → ∃ v, Visibility.word v = a := by
      intro v hv
      rw [hv, Option.mem_def] at ha
      obtain ⟨c, -, hc⟩ := Option.map_eq_some_iff.mp ha
      exact ⟨c, hc⟩
    simp only [List.mem_cons, List.not_mem_nil, or_false] at hp
    rcases hp with rfl | rfl | rfl
    · exact hword x rfl
    · exact hword y rfl
    · exact hword z rfl
  obtain ⟨hp, hrs⟩ := axisScript_separable visibility_axisTexts ["x", "y", "polar"] (by decide) (by decide) rfl rfl
    (htexts x y z) (htexts x' y' z') ha hb hr hs h
  have hinj := Option.map_injective visibility_word_injective
  simp only [List.cons.injEq, Prod.mk.injEq, true_and, and_true, hinj.eq_iff] at hp
  obtain ⟨rfl, rfl, rfl⟩ := hp
  exact ⟨rfl, hrs⟩

/-- A setting is known up to the form of its numbers from its text, if the line ends behind it. -/
theorem setting_separable :
    Separable LineEnd (fun s t => Setting.Plain s ∧ Setting.script s = .ok t) Setting.erased := by
  intro a b t u r s wa wb hr hs h
  obtain ⟨hpa, ha⟩ := wa
  obtain ⟨hpb, hb⟩ := wb
  obtain ⟨x, hx, rfl⟩ := map_eq_ok.mp ha
  obtain ⟨y, hy, rfl⟩ := map_eq_ok.mp hb
  simp only [String.toList_append, List.append_assoc] at h
  obtain ⟨hk, h1⟩ := keyword_append Setting.keyword_nodup a.kind_mem b.kind_mem h
  have h2 : x.toList ++ r = y.toList ++ s := List.tail_eq_of_cons_eq h1
  cases a with
  | seed v =>
    cases b with
    | seed w =>
      obtain ⟨rfl, hrs⟩ := seed_separable.eq hx hy hr hs h2
      exact ⟨rfl, hrs⟩
    | _ => cases hk
  | flags fs =>
    cases b with
    | flags fs' =>
      obtain ⟨rfl, hrs⟩ := flags_separable.eq ⟨hpa, hx⟩ ⟨hpb, hy⟩ hr hs h2
      exact ⟨rfl, hrs⟩
    | _ => cases hk
  | viewport v w =>
    cases b with
    | viewport v' w' => exact viewport_separable (a := (v, w)) (b := (v', w')) hx hy hr hs h2
    | _ => cases hk
  | minorSubdivisions v w =>
    cases b with
    | minorSubdivisions v' w' => exact minorSubdivisions_separable (a := (v, w)) (b := (v', w')) hx hy hr hs h2
    | _ => cases hk
  | axisSteps v w =>
    cases b with
    | axisSteps v' w' => exact axisSteps_separable (a := (v, w)) (b := (v', w')) hx hy hr hs h2
    | _ => cases hk
  | axisArrows v w =>
    cases b with
    | axisArrows v' w' => exact axisArrows_separable (a := (v, w)) (b := (v', w')) hx hy hr hs h2
    | _ => cases hk
  | axisLabels v w =>
    cases b with
    | axisLabels v' w' => exact axisLabels_separable (a := (v, w)) (b := (v', w')) hx hy hr hs h2
    | _ => cases hk
  | axes v w =>
    cases b with
    | axes v' w' => exact axes_separable (a := (v, w)) (b := (v', w')) hx hy hr hs h2
    | _ => cases hk
  | axisNumbers v w z =>
    cases b with
    | axisNumbers v' w' z' =>
      obtain ⟨hp, hrs⟩ := numbers_separable.eq (a := (v, w, z)) (b := (v', w', z')) hx hy hr hs h2
      simp only [Prod.mk.injEq] at hp
      obtain ⟨rfl, rfl, rfl⟩ := hp
      exact ⟨rfl, hrs⟩
    | _ => cases hk

end GraphScript
