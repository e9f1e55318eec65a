/-
  GraphScript.Proofs.Script.Groups — an option group is known from its text.

  Behind its keyword a group is a list of parts: what stands first, the flags, and the named
  expressions (`OptionGroup.parts`). Each kind of part begins in its own way, so the list is known
  from the text, and a group is known from its kind and its parts (`OptionGroup.rebuild`).

  Numbers are known up to their text only (`OptionGroup.erased`).
-/
import GraphScript.Proofs.Script.Blocks
import GraphScript.Proofs.Script.Words

namespace GraphScript

open Faults

/-! ## Named parts -/

/-- The parts that are there, each with its name. -/
def present {γ : Type} (parts : List (String × Option γ)) : List (String × γ) :=
  parts.filterMap fun p => p.2.map (p.1, ·)

/-- What is there of a list of named parts determines it, once the names are known. -/
theorem present_inj {γ : Type} {ps qs : List (String × Option γ)} (hn : ps.map (·.1) = qs.map (·.1))
    (hd : (ps.map (·.1)).Nodup) (h : present ps = present qs) : ps = qs := by
  induction ps generalizing qs with
  | nil => exact (List.map_eq_nil_iff.mp hn.symm).symm
  | cons p ps ih =>
    cases qs with
    | nil => exact absurd hn (by simp)
    | cons q qs =>
      obtain ⟨n, v⟩ := p
      obtain ⟨n', w⟩ := q
      simp only [List.map_cons, List.cons.injEq] at hn
      obtain ⟨rfl, hn⟩ := hn
      rw [List.map_cons, List.nodup_cons] at hd
      -- The name stands for nothing later, so the first parts are both there or both missing.
      have hlater : ∀ {l : List (String × Option γ)} {x}, (n, x) ∈ present l → n ∈ l.map (·.1) := by
        intro l x hx
        obtain ⟨p, hp, hpx⟩ := List.mem_filterMap.mp hx
        obtain ⟨y, -, hy⟩ := Option.map_eq_some_iff.mp hpx
        exact List.mem_map.mpr ⟨p, hp, congrArg Prod.fst hy⟩
      cases v with
      | none =>
        cases w with
        | none => rw [ih hn hd.2 h]
        | some y =>
          have hy : (n, y) ∈ present ps := by
            have : present ps = (n, y) :: present qs := h
            simp [this]
          exact absurd (hlater hy) hd.1
      | some x =>
        cases w with
        | none =>
          have hx : (n, x) ∈ present qs := by
            have : (n, x) :: present ps = present qs := h
            simp [← this]
          exact absurd (hn ▸ hlater hx) hd.1
        | some y =>
          have : (n, x) :: present ps = (n, y) :: present qs := h
          rw [List.cons.injEq, Prod.mk.injEq] at this
          rw [ih hn hd.2 this.2, this.1.2]

/-! ## Parts -/

/-- What may stand first in a group. -/
inductive Special where
  | text (value : Json)
  | interval (value : Interval)
  | expression (value : Latex)
  | parameters (ps : List RegressionParameter)
  | rules (rs : List ClickableRule)

inductive Part where
  | special (s : Special)
  | flag (f : Flag)
  | assigned (name : String) (value : Latex)

def Part.special? : Part → Option Special
  | .special s => some s
  | _ => none

def Part.flag? : Part → Option Flag
  | .flag f => some f
  | _ => none

def Part.assigned? : Part → Option (String × Latex)
  | .assigned name value => some (name, value)
  | _ => none

def Special.script (indentation : String) : Special → Except Fault String
  | .text value => value.stringScript
  | .interval value => .ok value.script
  | .expression value => .ok value.script
  | .parameters ps => (parametersScript ps).map fun text => "\x7b" ++ text ++ "\x7d"
  | .rules rs => .ok (rulesScript indentation rs)

def Part.script (indentation : String) : Part → Except Fault String
  | .special s => s.script indentation
  | .flag f => f.script
  | .assigned name value => .ok (name ++ "=" ++ value.script)

def Special.erased : Special → Special
  | .parameters ps => .parameters (ps.map (·.spelt))
  | s => s

def Part.erased : Part → Part
  | .special s => .special s.erased
  | p => p

/-- Both parameters and rules stand in braces, but in groups of different kinds. -/
def Special.Fits (kind : Kind) : Special → Prop
  | .parameters _ => kind = .regressionOption
  | .rules _ => kind ≠ .regressionOption
  | _ => True

/-- The names of expressions in groups. -/
def partNames : List String :=
  ["var", "size", "angle", "period", "residuals", "opacity", "width", "breadth", "offset", "height", "center"]

def Part.Fits (kind : Kind) : Part → Prop
  | .special s => s.Fits kind
  | .flag f => f ∈ Flag.plain
  | .assigned name _ => name ∈ partNames

/-- The characters that may follow a part of a group. -/
def PartEnd : List Char → Prop := Opens (· ∈ [',', ';', '\n'])

/-- The characters that may follow a group. -/
def GroupEnd : List Char → Prop := Opens (· ∈ [';', '\n'])

@[simp] theorem partEnd_cons {c : Char} {r : List Char} : PartEnd (c :: r) ↔ c ∈ [',', ';', '\n'] := by simp [PartEnd]

@[simp] theorem groupEnd_cons {c : Char} {r : List Char} : GroupEnd (c :: r) ↔ c ∈ [';', '\n'] := by simp [GroupEnd]

theorem PartEnd.avoids {p : Char → Bool} {r : List Char} (h : PartEnd r) (hp : [',', ';', '\n'].all p = true) :
    Opens p r := Opens.avoids h hp

/-! ## What stands first -/

/-- The first character of what stands first. -/
def Special.opening : Special → Char
  | .text _ => '"'
  | .interval _ => '['
  | .expression _ => '\x60'
  | .parameters _ | .rules _ => '\x7b'

theorem Special.script_cons {indentation : String} {s : Special} {t : String} (h : s.script indentation = .ok t) :
    ∃ r, t.toList = s.opening :: r := by
  cases s with
  | text value =>
    obtain ⟨x, -, rfl⟩ := Json.stringScript_eq_ok.mp h
    exact ⟨_, by rw [toList_stringScript, List.cons_append]; rfl⟩
  | interval value =>
    obtain rfl := Except.ok.inj h
    exact ⟨_, by simp only [Interval.script, String.toList_append, List.append_assoc]; rfl⟩
  | expression value =>
    obtain rfl := Except.ok.inj h
    exact ⟨_, by rw [toList_latex, List.cons_append]; rfl⟩
  | parameters ps =>
    obtain ⟨x, -, rfl⟩ := map_eq_ok.mp h
    exact ⟨_, by simp only [String.toList_append, List.append_assoc]; rfl⟩
  | rules rs =>
    obtain rfl := Except.ok.inj h
    exact toList_block _ _

theorem special_separable {indentation : String} (hi : Blanks indentation) (kind : Kind) :
    Separable PartEnd (fun s t => Special.Fits kind s ∧ Special.script indentation s = .ok t) Special.erased := by
  intro a b t u r s wa wb hr hs h
  obtain ⟨hfa, ha⟩ := wa
  obtain ⟨hfb, hb⟩ := wb
  have hopen : a.opening = b.opening := by
    obtain ⟨t', ht⟩ := Special.script_cons ha
    obtain ⟨u', hu⟩ := Special.script_cons hb
    rw [ht, hu] at h
    exact List.head_eq_of_cons_eq h
  cases a with
  | text v =>
    cases b with
    | text w =>
      obtain ⟨rfl, hrs⟩ := Json.string_separable.eq ha hb (hr.avoids (by decide)) (hs.avoids (by decide)) h
      exact ⟨rfl, hrs⟩
    | _ => simp [Special.opening] at hopen
  | interval i =>
    cases b with
    | interval j =>
      obtain ⟨rfl, hrs⟩ := Interval.separable.eq (Except.ok.inj ha) (Except.ok.inj hb) trivial trivial h
      exact ⟨rfl, hrs⟩
    | _ => simp [Special.opening] at hopen
  | expression l =>
    cases b with
    | expression m =>
      obtain ⟨rfl, hrs⟩ := Latex.separable.eq (Except.ok.inj ha) (Except.ok.inj hb) (hr.avoids (by decide))
        (hs.avoids (by decide)) h
      exact ⟨rfl, hrs⟩
    | _ => simp [Special.opening] at hopen
  | parameters ps =>
    cases b with
    | parameters qs =>
      obtain ⟨x, hx, rfl⟩ := map_eq_ok.mp ha
      obtain ⟨y, hy, rfl⟩ := map_eq_ok.mp hb
      simp only [String.toList_append, List.append_assoc, List.append_cancel_left_eq] at h
      obtain ⟨hpq, h1⟩ := parameters_separable hx hy (by simp) (by simp) h
      exact ⟨congrArg Special.parameters hpq, List.append_cancel_left h1⟩
    | rules _ => exact absurd hfa hfb
    | _ => simp [Special.opening] at hopen
  | rules rs =>
    cases b with
    | rules ss =>
      obtain ⟨rfl, hrs⟩ := (rules_separable hi).eq (Except.ok.inj ha) (Except.ok.inj hb) trivial trivial h
      exact ⟨rfl, hrs⟩
    | parameters _ => exact absurd hfb hfa
    | _ => simp [Special.opening] at hopen

/-! ## Parts of a group -/

theorem Special.opening_not_isAlpha (s : Special) : s.opening.isAlpha = false := by
  cases s <;> rfl

theorem partNames_words : ∀ name ∈ partNames, (∀ c ∈ name.toList, isWordChar c = true) ∧
    ∃ c ∈ name.toList.head?, c.isAlpha = true := by
  have hall : ∀ name ∈ partNames,
      name.toList.all isWordChar = true ∧ name.toList.head?.any (·.isAlpha) = true := by decide
  exact fun name hn => ⟨List.all_eq_true.mp (hall name hn).1, (Option.any_eq_true _ _).mp (hall name hn).2⟩

/-- A flag or a name does not begin as what stands first does. -/
theorem special_ne_word {indentation : String} {s : Special} {t u : String} {r r' : List Char}
    (h : s.script indentation = .ok t) (hu : ∃ c ∈ u.toList.head?, c.isAlpha = true) :
    t.toList ++ r ≠ u.toList ++ r' := by
  intro he
  obtain ⟨t', ht⟩ := Special.script_cons h
  obtain ⟨c, hc, hcu⟩ := hu
  have hd := s.opening_not_isAlpha
  rw [ht, List.eq_cons_of_mem_head? hc] at he
  rw [List.head_eq_of_cons_eq he, hcu] at hd
  cases hd

/-- A flag is not followed by an equals sign. -/
theorem flag_ne_assigned {f : Flag} {t name : String} {r r' : List Char} (hf : f ∈ Flag.plain) (ht : f.script = .ok t)
    (hn : name ∈ partNames) (hr : PartEnd r) : t.toList ++ r ≠ name.toList ++ '=' :: r' := by
  intro h
  obtain ⟨-, rfl⟩ := append_eq_of_class (Flag.plain_text hf ht).1 (partNames_words name hn).1
    (hr.avoids (by decide)) (by simp; decide) h
  simp at hr

theorem part_separable {indentation : String} (hi : Blanks indentation) (kind : Kind) :
    Separable PartEnd (fun p t => Part.Fits kind p ∧ Part.script indentation p = .ok t) Part.erased := by
  have hassigned : ∀ {name : String} {l : Latex} {t : String}, Part.script indentation (.assigned name l) = .ok t →
      ∀ r, t.toList ++ r = name.toList ++ '=' :: (l.script.toList ++ r) := by
    intro name l t ht r
    obtain rfl := Except.ok.inj ht
    simp
  intro a b t u r s wa wb hr hs h
  obtain ⟨hfa, ha⟩ := wa
  obtain ⟨hfb, hb⟩ := wb
  cases a with
  | special x =>
    cases b with
    | special y =>
      obtain ⟨hxy, hrs⟩ := special_separable hi kind ⟨hfa, ha⟩ ⟨hfb, hb⟩ hr hs h
      exact ⟨congrArg Part.special hxy, hrs⟩
    | flag f => exact absurd h (special_ne_word ha (Flag.plain_text hfb hb).2)
    | assigned name l =>
      rw [hassigned hb] at h
      exact absurd h (special_ne_word ha (partNames_words name hfb).2)
  | flag f =>
    cases b with
    | special y => exact absurd h.symm (special_ne_word hb (Flag.plain_text hfa ha).2)
    | flag g =>
      obtain ⟨rfl, hrs⟩ := Flag.separable.eq ⟨hfa, ha⟩ ⟨hfb, hb⟩ (hr.avoids (by decide)) (hs.avoids (by decide)) h
      exact ⟨rfl, hrs⟩
    | assigned name l =>
      rw [hassigned hb] at h
      exact absurd h (flag_ne_assigned hfa ha hfb hr)
  | assigned name l =>
    rw [hassigned ha] at h
    cases b with
    | special y => exact absurd h.symm (special_ne_word hb (partNames_words name hfa).2)
    | flag g => exact absurd h.symm (flag_ne_assigned hfb hb hfa hs)
    | assigned name' l' =>
      rw [hassigned hb] at h
      obtain ⟨hn, h1⟩ := append_eq_of_class (partNames_words name hfa).1 (partNames_words name' hfb).1
        (by simp; decide) (by simp; decide) h
      obtain rfl := String.toList_inj.mp hn
      obtain ⟨rfl, hrs⟩ := Latex.separable.eq rfl rfl (hr.avoids (by decide)) (hs.avoids (by decide))
        (List.tail_eq_of_cons_eq h1)
      exact ⟨rfl, hrs⟩

/-! ## Groups and their parts -/

namespace OptionGroup

/-- What stands first in a group, if anything does. -/
def first? : OptionGroup → Option Special
  | .id value => some (.text (.str value))
  | .color value _ | .label value _ _ _ => if value.isNull then none else some (.text value)
  | .slider value _ _ | .cdf value _ => value.map .interval
  | .domain value | .polarDomain value => some (.interval value)
  | .regression parameters _ _ => some (.parameters parameters)
  | .fps value => some (.expression value)
  | .clickableRules rules _ => some (.rules rules)
  | .clickableLabel value | .name value => some (.text value)
  | .display _ | .binsAligned _ | .histogramMode _ | .drag _ | .points _ _ _ | .lines _ _ _ | .fill _ _
  | .boxplot _ _ _ | .dotplot _ | .image _ _ _ _ _ => none

def parts (g : OptionGroup) : List Part :=
  g.first?.toList.map .special ++ g.flags.map .flag ++ (present g.assignments).map fun p => .assigned p.1 p.2

/-- The group of a kind with what stands first in it, its flags and its named expressions. -/
def rebuild (kind : Kind) (first : Option Special) (flags : List Flag) (assigned : List (Option Latex)) : OptionGroup :=
  let text := match first with | some (.text value) => value | _ => .null
  let interval := match first with | some (.interval value) => some value | _ => none
  let nth (n : Nat) := assigned.getD n none
  match kind with
  | .colorOption => .color text (nth 0)
  | .labelOption => .label text (nth 0) (nth 1) flags
  | .sliderOption => .slider interval (nth 0) flags
  | .domainOption => .domain (interval.getD {})
  | .polarDomainOption => .polarDomain (interval.getD {})
  | .cdfOption => .cdf interval flags
  | .regressionOption => .regression (match first with | some (.parameters ps) => ps | _ => []) (nth 0) flags
  | .fpsOption => .fps (match first with | some (.expression value) => value | _ => ⟨""⟩)
  | .clickableRulesOption => .clickableRules (match first with | some (.rules rs) => rs | _ => []) flags
  | .clickableLabelOption => .clickableLabel text
  | .nameOption => .name text
  | .displayOption => .display flags
  | .binsAlignedOption => .binsAligned flags
  | .histogramModeOption => .histogramMode flags
  | .dragOption => .drag flags
  | .pointsOption => .points flags (nth 0) (nth 1)
  | .linesOption => .lines flags (nth 0) (nth 1)
  | .fillOption => .fill flags (nth 0)
  | .boxplotOption => .boxplot (nth 0) (nth 1) flags
  | .dotplotOption => .dotplot flags
  | .imageOption => .image (nth 0) (nth 1) (nth 2) (nth 3) (nth 4)
  | _ => .id (match text with | .str s => s | _ => "")

theorem rebuild_parts (g : OptionGroup) : rebuild g.kind g.first? g.flags (g.assignments.map (·.2)) = g := by
  cases g with
  | color value source => cases value <;> rfl
  | label value size angle flags => cases value <;> rfl
  | slider value period flags => cases value <;> rfl
  | cdf value flags => cases value <;> rfl
  | _ => rfl

/-- The names of the expressions in a group of this kind, there or not. -/
def names (kind : Kind) : List String := (rebuild kind none [] []).assignments.map (·.1)

theorem assignments_names (g : OptionGroup) : g.assignments.map (·.1) = names g.kind := by
  cases g <;> rfl

theorem names_nodup (g : OptionGroup) : (names g.kind).Nodup ∧ ∀ name ∈ names g.kind, name ∈ partNames := by
  have hall : ∀ k ∈ kinds, (names k).Nodup ∧ ∀ name ∈ names k, name ∈ partNames := by decide
  exact hall g.kind g.kind_mem

theorem present_names {g : OptionGroup} {p : String × Latex} (h : p ∈ present g.assignments) : p.1 ∈ partNames := by
  obtain ⟨q, hq, hqp⟩ := List.mem_filterMap.mp h
  obtain ⟨x, -, rfl⟩ := Option.map_eq_some_iff.mp hqp
  refine (names_nodup g).2 _ ?_
  rw [← assignments_names]
  exact List.mem_map_of_mem hq

theorem assignmentScripts_eq (g : OptionGroup) :
    g.assignmentScripts = (present g.assignments).map fun p => p.1 ++ "=" ++ p.2.script := by
  simp only [assignmentScripts, present, List.map_filterMap, Option.map_map, Function.comp_def]

/-- A regression without the form of its values. -/
def erased : OptionGroup → OptionGroup
  | .regression parameters residuals flags => .regression (parameters.map (·.spelt)) residuals flags
  | g => g

theorem kind_erased (g : OptionGroup) : g.erased.kind = g.kind := by cases g <;> rfl

theorem parts_erased (g : OptionGroup) : g.erased.parts = g.parts.map Part.erased := by
  have hfirst : g.erased.first? = g.first?.map Special.erased := by
    cases g with
    | color value source => cases value <;> rfl
    | label value size angle flags => cases value <;> rfl
    | slider value period flags => cases value <;> rfl
    | cdf value flags => cases value <;> rfl
    | _ => rfl
  have hflags : g.erased.flags = g.flags := by cases g <;> rfl
  have hassigned : g.erased.assignments = g.assignments := by cases g <;> rfl
  simp only [parts, hfirst, hflags, hassigned, List.map_append, List.map_map, Function.comp_def, Part.erased]
  cases g.first? <;> rfl

/-- Groups of one kind with the same parts are the same. -/
theorem parts_inj {g g' : OptionGroup} (hk : g.kind = g'.kind) (h : g.parts = g'.parts) : g = g' := by
  have hfirst : ∀ g : OptionGroup, (g.parts.filterMap Part.special?).head? = g.first? := by
    intro g
    simp only [parts, List.filterMap_append, List.filterMap_map]
    cases g.first? <;> simp [Function.comp_def, Part.special?]
  have hflags : ∀ g : OptionGroup, g.parts.filterMap Part.flag? = g.flags := by
    intro g
    simp [parts, List.filterMap_append, List.filterMap_map, Function.comp_def, Part.flag?]
  have hassigned : ∀ g : OptionGroup, g.parts.filterMap Part.assigned? = present g.assignments := by
    intro g
    simp [parts, List.filterMap_append, List.filterMap_map, Function.comp_def, Part.assigned?]
  have hf : g.first? = g'.first? := by rw [← hfirst, h, hfirst]
  have hl : g.flags = g'.flags := by rw [← hflags, h, hflags]
  have ha : g.assignments = g'.assignments := by
    refine present_inj ?_ ?_ (by rw [← hassigned, h, hassigned])
    · rw [assignments_names, assignments_names, hk]
    · rw [assignments_names]
      exact (names_nodup g).1
  rw [← rebuild_parts g, hk, hf, hl, ha, rebuild_parts]

/-! ## The text of a group -/

/-- The flags of a group can stand in a script. -/
def Plain (g : OptionGroup) : Prop := ∀ f ∈ g.flags, f ∈ Flag.plain

theorem special_eq_ok {indentation t : String} {g : OptionGroup} (h : g.special indentation = .ok t) :
    Optionally (fun s t => Special.Fits g.kind s ∧ Special.script indentation s = .ok t) g.first? t := by
  have hvalue : ∀ {value : Json} {kind}, (value.present Json.stringScript).map (·.getD "") = .ok t →
      Optionally (fun s t => Special.Fits kind s ∧ Special.script indentation s = .ok t)
        (if value.isNull then none else some (.text value)) t := by
    intro value kind h
    obtain ⟨x, hx, rfl⟩ := map_eq_ok.mp h
    rcases Json.present_eq_ok.mp hx with ⟨rfl, rfl⟩ | ⟨hn, y, hy, rfl⟩
    · rfl
    · rw [if_neg (fun h => hn (Json.isNull_iff.mp h))]
      exact ⟨trivial, hy⟩
  cases g with
  | color value source => exact hvalue h
  | label value size angle flags => exact hvalue h
  | slider value period flags | cdf value flags =>
    obtain rfl := Except.ok.inj h
    cases value with
    | none => rfl
    | some i => exact ⟨trivial, rfl⟩
  | regression parameters residuals flags => exact ⟨rfl, h⟩
  | clickableRules rules flags => exact ⟨nofun, h⟩
  | id _ | domain _ | polarDomain _ | fps _ | clickableLabel _ | name _ => exact ⟨trivial, h⟩
  | _ => exact Except.ok.inj h

/-- A part begins with a character that follows no group. -/
theorem part_cons {indentation t : String} {kind : Kind} {p : Part} (hf : p.Fits kind)
    (h : p.script indentation = .ok t) : ∃ c r, t.toList = c :: r ∧ c ∉ [';', '\n'] := by
  have hword : ∀ {u : String}, (∃ c ∈ u.toList.head?, c.isAlpha = true) → ∃ c r, u.toList = c :: r ∧ c ∉ [';', '\n'] := by
    intro u w
    obtain ⟨c, hc, ha⟩ := w
    refine ⟨c, _, List.eq_cons_of_mem_head? hc, fun hm => ?_⟩
    rcases List.mem_cons.mp hm with rfl | hm
    · revert ha; decide
    · rw [List.mem_singleton.mp hm] at ha
      revert ha; decide
  cases p with
  | special s =>
    obtain ⟨r, hr⟩ := Special.script_cons h
    exact ⟨_, r, hr, by cases s <;> simp [Special.opening]⟩
  | flag f => exact hword (Flag.plain_text hf h).2
  | assigned name l =>
    obtain rfl := Except.ok.inj h
    obtain ⟨c, r, hr, hc⟩ := hword (partNames_words name hf).2
    exact ⟨c, _, by rw [String.toList_append, String.toList_append, hr]; rfl, hc⟩

theorem part_ne_empty {indentation t : String} {kind : Kind} {p : Part} (hf : p.Fits kind)
    (h : p.script indentation = .ok t) : t ≠ "" := by
  intro et
  subst et
  obtain ⟨c, r, hr, -⟩ := part_cons hf h
  simp at hr

theorem part_not_end {indentation t : String} {kind : Kind} {p : Part} {r : List Char} (hf : p.Fits kind)
    (h : p.script indentation = .ok t) : ¬ GroupEnd (t.toList ++ r) := by
  obtain ⟨c, r', hr, hc⟩ := part_cons hf h
  rw [hr, List.cons_append, groupEnd_cons]
  exact hc

/-- A group is written as its keyword and its parts. -/
theorem script_eq_ok {indentation t : String} {g : OptionGroup} (hp : g.Plain) (h : g.script indentation = .ok t) :
    ∃ body, Joined ", " (fun p t => Part.Fits g.kind p ∧ Part.script indentation p = .ok t) g.parts body ∧
      g.kind.keyword ++ (if body = "" then ":" else ": " ++ body) = t := by
  simp only [script, bind_eq_ok, pure_eq, Except.ok.injEq] at h
  obtain ⟨first, hfirst, flags, hflags, rfl⟩ := h
  have hfirst := special_eq_ok hfirst
  have hrest : List.Forall₂ (fun p t => Part.Fits g.kind p ∧ Part.script indentation p = .ok t)
      (g.flags.map .flag ++ (present g.assignments).map fun p => .assigned p.1 p.2) (flags ++ g.assignmentScripts) := by
    refine List.rel_append (List.forall₂_map_left_iff.mpr (forall₂_of_mapM hp hflags)) ?_
    rw [assignmentScripts_eq]
    exact List.forall₂_map_left_iff.mpr
      (List.forall₂_map_right_iff.mpr (List.forall₂_same.mpr fun p hp => ⟨present_names hp, rfl⟩))
  rw [parts, List.append_assoc]
  generalize hf : g.first? = f at hfirst ⊢
  cases f with
  | none =>
    obtain rfl := hfirst
    exact ⟨_, ⟨_, hrest, rfl⟩, by simp⟩
  | some s =>
    refine ⟨_, ⟨_, .cons hfirst hrest, rfl⟩, ?_⟩
    have hne : first ≠ "" := part_ne_empty (show (Part.special s).Fits g.kind from hfirst.1) hfirst.2
    generalize flags ++ g.assignmentScripts = texts at hrest ⊢
    rw [Text.joined_cons hne fun u us hu => ?_]
    subst hu
    obtain ⟨p, ps, hu, -, -⟩ := List.forall₂_cons_right_iff.mp hrest
    exact part_ne_empty hu.1 hu.2

/-- A group is known up to the form of regression values from its text, if a semicolon or the end of the line
    follows. -/
theorem separable {indentation : String} (hi : Blanks indentation) :
    Separable GroupEnd (fun g t => Plain g ∧ script indentation g = .ok t) erased := by
  intro a b t u r s wa wb hr hs h
  obtain ⟨hpa, ha⟩ := wa
  obtain ⟨hpb, hb⟩ := wb
  obtain ⟨body, hbody, rfl⟩ := script_eq_ok hpa ha
  obtain ⟨body', hbody', rfl⟩ := script_eq_ok hpb hb
  have htext : ∀ (k : Kind) (body : String) (r : List Char),
      (k.keyword ++ (if body = "" then ":" else ": " ++ body)).toList ++ r =
        k.keyword.toList ++ ':' :: ((if body = "" then [] else [' ']) ++ (body.toList ++ r)) := by
    intro k body r
    by_cases hb : body = "" <;> simp [hb]
  rw [htext, htext] at h
  obtain ⟨hk, h1⟩ := keyword_append keyword_nodup a.kind_mem b.kind_mem h
  have h2 : body.toList ++ r = body'.toList ++ s := by
    by_cases hb : body = "" <;> by_cases hb' : body' = ""
    · simpa [hb, hb'] using h1
    · simp only [hb, hb', if_true, if_false, String.toList_empty, List.nil_append, List.cons_append] at h1
      simp [h1] at hr
    · simp only [hb, hb', if_true, if_false, String.toList_empty, List.nil_append, List.cons_append] at h1
      simp [← h1] at hs
    · simpa [hb, hb'] using h1
  have he : Ends ", " (fun p t => Part.Fits a.kind p ∧ Part.script indentation p = .ok t) PartEnd GroupEnd :=
    ⟨fun r hr => hr.mono fun c hc => by simp at hc ⊢; simp [hc], fun r => by simp, fun _ _ _ _ h => by simp at h⟩
  have hj := (part_separable hi a.kind).joined he fun p t r hp h => part_not_end hp.1 hp.2 h
  rw [← hk] at hbody'
  obtain ⟨hparts, hrs⟩ := hj hbody hbody' hr hs h2
  refine ⟨parts_inj (by rw [kind_erased, kind_erased, hk]) ?_, hrs⟩
  rw [parts_erased, parts_erased, hparts]

end OptionGroup

end GraphScript
