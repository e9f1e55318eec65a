/-
  GraphScript.Proofs.Documents.Toggles — what asking for the graph flags changes.

  The flags are read before the settings, from the same graph. A graph that has a viewport is an
  object, so reading its toggles never fails where the rest succeeds. What they add is one setting
  behind the seed, and so one line of the script, which can always be written.

  - `graph_flags_add_a_line`
-/
import GraphScript.Proofs.Documents.Translatable
import GraphScript.Proofs.Script.Words
import GraphScript.Proofs.Text.Splitting

namespace GraphScript

open Faults

/-! ## One more line -/

/-- A line that can be written can be added to a program, and shows where it is added. -/
theorem Program.script_insert {before after : List Line} {l : Line} {text : String} (hl : l.script = .ok text)
    (hn : '\n' ∉ text.toList) (ha : after ≠ []) :
    (Succeeds (Program.mk (before ++ l :: after)).script ↔ Succeeds (Program.mk (before ++ after)).script) ∧
      ∀ t u, (Program.mk (before ++ l :: after)).script = .ok t → (Program.mk (before ++ after)).script = .ok u →
        ∃ first last, physicalLines t = first ++ text.toList :: last ∧ physicalLines u = first ++ last := by
  simp only [Program.script, List.mapM_append, List.mapM_cons, hl, ok_bind, succeeds_map, map_eq_ok]
  constructor
  · simp only [succeeds_bind, pure_eq, succeeds_ok, implies_true, and_true]
  · simp only [bind_eq_ok, pure_eq, Except.ok.injEq]
    rintro t u ⟨_, ⟨firsts, hf, _, ⟨lasts, hb, rfl⟩, rfl⟩, rfl⟩ ⟨_, ⟨firsts', hf', lasts', hb', rfl⟩, rfl⟩
    obtain rfl : firsts = firsts' := Except.ok.inj (hf.symm.trans hf')
    obtain rfl : lasts = lasts' := Except.ok.inj (hb.symm.trans hb')
    have hlasts : lasts ≠ [] := by
      rintro rfl
      exact ha (List.forall₂_nil_right_iff.mp (mapM_eq_ok.mp hb))
    refine ⟨firsts.flatMap physicalLines, lasts.flatMap physicalLines, ?_, ?_⟩
    · have htext : physicalLines text = [text.toList] := List.splitOn_eq_singleton hn
      rw [physicalLines_joined (by simp), List.flatMap_append, List.flatMap_cons, htext, List.singleton_append]
    · rw [physicalLines_joined (by simp [hlasts]), List.flatMap_append]

/-! ## Toggles -/

/-- What a graph says of a toggle that is literally true or false. -/
def Toggles (graph : Json.Fields) (toggle : String × FlagWord × FlagWord) (w : FlagWord) : Prop :=
  ∃ b, graph.get toggle.1 = .bool b ∧ w = if b then toggle.2.1 else toggle.2.2

/-- Whether a toggle is literally true or false. -/
def isToggled (graph : Json.Fields) (toggle : String × FlagWord × FlagWord) : Bool :=
  graph.get toggle.1 == .bool true || graph.get toggle.1 == .bool false

theorem hasToggle_eq_any (graph : Json.Fields) : hasToggle graph = graphToggles.any (isToggled graph) := by
  refine congrArg graphToggles.any (funext fun toggle => ?_)
  unfold isToggled
  cases graph.get toggle.1 with
  | bool b => cases b <;> rfl
  | _ => rfl

/-- The flags of a graph have a word for each toggle that is literally true or false, in the order of the toggles. -/
theorem toggleFlags_words (graph : Json.Fields) :
    ∃ words, toggleFlags graph = words.map Flag.word ∧
      List.Forall₂ (Toggles graph) (graphToggles.filter (isToggled graph)) words := by
  unfold toggleFlags
  induction graphToggles with
  | nil => exact ⟨[], rfl, .nil⟩
  | cons toggle rest ih =>
    obtain ⟨words, hw, hf⟩ := ih
    obtain ⟨key, whenTrue, whenFalse⟩ := toggle
    simp only [List.filterMap_cons, List.filter_cons, hw]
    cases hv : graph.get key with
    | bool b =>
      have ht : isToggled graph (key, whenTrue, whenFalse) = true := by
        cases b <;> simp [isToggled, hv]
      rw [if_pos ht]
      exact ⟨_ :: words, rfl, .cons ⟨b, hv, rfl⟩ hf⟩
    | _ =>
      have ht : isToggled graph (key, whenTrue, whenFalse) = false := by simp [isToggled, hv]
      rw [ht]
      exact ⟨words, rfl, hf⟩

theorem flags_script (words : List FlagWord) : (Line.setting (.flags (words.map .word))).script =
    .ok ("flags: " ++ Text.joined ", " (words.map FlagWord.word)) := by
  have hw : (words.map Flag.word).mapM Flag.script = .ok (words.map FlagWord.word) := by
    rw [List.mapM_map]
    exact mapM_ok (fun _ => rfl) words
  simp only [Line.script, Setting.script, Setting.body, hw]
  rfl

theorem flags_line_unbroken (words : List FlagWord) :
    '\n' ∉ ("flags: " ++ Text.joined ", " (words.map FlagWord.word)).toList := by
  have hword : ∀ w : FlagWord, '\n' ∉ w.word.toList := fun w hc =>
    absurd ((Flag.plain_text (Flag.word_plain w) rfl).1 _ hc) (by decide)
  rw [String.toList_append, List.mem_append, not_or]
  refine ⟨by decide, ?_⟩
  cases words with
  | nil => decide
  | cons w words =>
    rw [List.map_cons, Text.toList_joined_cons, toList_join_map, List.mem_append, not_or]
    refine ⟨hword w, fun hc => ?_⟩
    obtain ⟨text, ht, hc⟩ := List.mem_flatMap.mp hc
    obtain ⟨v, -, rfl⟩ := List.mem_map.mp ht
    rcases List.mem_append.mp hc with hc | hc
    · exact absurd hc (by decide)
    · exact hword v hc

/-! ## Documents -/

/-- The lines of a document without graph flags, and with them. -/
theorem translate_with_and_without {state : Json} {p q : Program} (hp : (translate true state).result = .ok p)
    (hq : (translate false state).result = .ok q) :
    ∃ (fs graph : Json.Fields) (rest : List Line), state = .obj fs ∧ fs.get "graph" = .obj graph ∧ rest ≠ [] ∧
      p.lines = (seedOf fs ++ flagsOf true graph).map Line.setting ++ rest ∧
      q.lines = (seedOf fs).map Line.setting ++ rest := by
  obtain ⟨fs, _, items, lines, rfl, -, hs, hi, hl, rfl⟩ := translate_eq_ok.mp hp
  obtain ⟨fs', _, items', lines', he, -, hs', hi', hl', rfl⟩ := translate_eq_ok.mp hq
  cases he
  obtain ⟨graph, axes, hg, ha, rfl⟩ := stateSettings_eq_ok hs
  obtain ⟨graph', axes', hg', ha', rfl⟩ := stateSettings_eq_ok hs'
  obtain rfl : graph = graph' := Json.obj.inj (hg.symm.trans hg')
  obtain rfl : axes = axes' := Except.ok.inj (ha.symm.trans ha')
  obtain rfl : items = items' := Except.ok.inj (hi.symm.trans hi')
  obtain rfl : lines = lines' := Except.ok.inj (hl.symm.trans hl')
  refine ⟨fs, graph, (viewportOf graph :: axes).map Line.setting ++ lines, rfl, hg, by simp, ?_, ?_⟩
  · rw [List.map_append, List.append_assoc]
  · simp [flagsOf]

/-- A document is translated with graph flags exactly when it is translated without. Without a toggle that is literally
    true or false the programs are the same; with one, there is one more setting behind the seed, with a word for each
    such toggle in the order of the toggles, and one more line in the script. -/
theorem graph_flags_add_a_line (state : Json) :
    ((∃ p, (translate true state).result = .ok p) ↔ ∃ q, (translate false state).result = .ok q) ∧
    ∀ p q, (translate true state).result = .ok p → (translate false state).result = .ok q →
      ∃ (fs graph : Json.Fields) (rest : List Line), state = .obj fs ∧ fs.get "graph" = .obj graph ∧
        q.lines = (seedOf fs).map Line.setting ++ rest ∧
        (graphToggles.any (isToggled graph) = false → p = q) ∧
        (graphToggles.any (isToggled graph) = true →
          ∃ words, List.Forall₂ (Toggles graph) (graphToggles.filter (isToggled graph)) words ∧
            p.lines = (seedOf fs).map Line.setting ++ .setting (.flags (words.map .word)) :: rest ∧
            ((∃ t, p.script = .ok t) ↔ ∃ u, q.script = .ok u) ∧
            ∀ t u, p.script = .ok t → q.script = .ok u → ∃ before after,
              physicalLines t = before ++ ("flags: " ++ Text.joined ", " (words.map FlagWord.word)).toList :: after ∧
                physicalLines u = before ++ after) := by
  refine ⟨(translate_succeeds true state).trans (translate_succeeds false state).symm, ?_⟩
  rintro ⟨plines⟩ ⟨qlines⟩ hp hq
  obtain ⟨fs, graph, rest, rfl, hg, hrest, hpl, hql⟩ := translate_with_and_without hp hq
  dsimp only at hpl hql
  subst hpl hql
  refine ⟨fs, graph, rest, rfl, hg, rfl, fun hno => ?_, fun htoggle => ?_⟩
  · rw [← hasToggle_eq_any] at hno
    simp [flagsOf, hno]
  · obtain ⟨words, hw, hf⟩ := toggleFlags_words graph
    rw [← hasToggle_eq_any] at htoggle
    have hflags : (seedOf fs ++ flagsOf true graph).map Line.setting ++ rest =
        (seedOf fs).map Line.setting ++ .setting (.flags (words.map .word)) :: rest := by
      simp [flagsOf, htoggle, hw]
    rw [hflags]
    exact ⟨words, hf, rfl, Program.script_insert (flags_script words) (flags_line_unbroken words) hrest⟩

/-- Two toggles, one of them off, behind a seed of two lines; a third toggle is a number. -/
theorem graph_flags_add_a_line_behind_a_seed :
    let bounds : Json := .obj [("xmin", .int 0), ("xmax", .int 1), ("ymin", .int 0), ("ymax", .int 1)]
    let graph : Json.Fields := [("viewport", bounds), ("squareAxes", .bool true), ("showGrid", .bool false),
      ("polarMode", .int 1)]
    let state : Json := .obj [("version", .int 8), ("randomSeed", .str "a\nflags: b"), ("graph", .obj graph)]
    let seed : Line := .setting (.seed (.str "a\nflags: b"))
    let viewport : Line := .setting (.viewport (some ⟨.int 0, .int 1⟩) (some ⟨.int 0, .int 1⟩))
    let p : Program := ⟨[seed, .setting (.flags [.word .gridHidden, .word .squareAxes]), viewport]⟩
    let q : Program := ⟨[seed, viewport]⟩
    (translate true state).result = .ok p ∧ (translate false state).result = .ok q ∧
      p.script = .ok "seed: \"a\nflags: b\"\nflags: hide grid, square axes\nviewport: x [0:1], y [0:1]" ∧
      q.script = .ok "seed: \"a\nflags: b\"\nviewport: x [0:1], y [0:1]" ∧
      ∃ (fs graph : Json.Fields) (rest : List Line), state = .obj fs ∧ fs.get "graph" = .obj graph ∧
        q.lines = (seedOf fs).map Line.setting ++ rest ∧
        (graphToggles.any (isToggled graph) = false → p = q) ∧
        (graphToggles.any (isToggled graph) = true →
          ∃ words, List.Forall₂ (Toggles graph) (graphToggles.filter (isToggled graph)) words ∧
            p.lines = (seedOf fs).map Line.setting ++ .setting (.flags (words.map .word)) :: rest ∧
            ((∃ t, p.script = .ok t) ↔ ∃ u, q.script = .ok u) ∧
            ∀ t u, p.script = .ok t → q.script = .ok u → ∃ before after,
              physicalLines t = before ++ ("flags: " ++ Text.joined ", " (words.map FlagWord.word)).toList :: after ∧
                physicalLines u = before ++ after) := by
  intro bounds graph state seed viewport p q
  have hp : (translate true state).result = .ok p := rfl
  have hq : (translate false state).result = .ok q := rfl
  exact ⟨hp, hq, by decide, by decide, (graph_flags_add_a_line state).2 p q hp hq⟩

end GraphScript
