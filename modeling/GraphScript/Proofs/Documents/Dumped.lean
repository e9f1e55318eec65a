/-
  GraphScript.Proofs.Documents.Dumped — the dump of a document, as text.

  Programs of documents carry parts of them, so their dumps are sound: no key stands twice in an
  object, and no number has too many digits. Hence the text of a dump is read back at every indent,
  and two dumps of one text are of one program.

  - `dump_reads_back`: what is read from the text of a dump.
  - `dump_tells_program_and_script`: what two documents of one dump have in common.
-/
import GraphScript.Proofs.Json.RoundTrip
import GraphScript.Proofs.Records.Dumps

namespace GraphScript

open Faults

/-! ## Trees -/

/-- The values in a tree are sound. -/
inductive Tree.Sound : Tree → Prop where
  | plain {j : Json} (value : j.Sound) : Sound (.plain j)
  | list {members : List Tree} (each : ∀ t ∈ members, Sound t) : Sound (.list members)
  | token (t : Token) : Sound (.token t)
  | record (kind : Kind) {fields : List Tree} (each : ∀ t ∈ fields, Sound t) : Sound (.record kind fields)

namespace Tree

theorem mem_dumpFields {names : List String} {ts : List Tree} {f : String × Json} (h : f ∈ dumpFields names ts) :
    ∃ t ∈ ts, f.2 = t.dump := by
  rw [dumpFields_eq] at h
  obtain ⟨⟨name, o⟩, hz, hf⟩ := List.mem_filterMap.mp h
  obtain ⟨j, rfl, rfl⟩ := Option.map_eq_some_iff.mp hf
  obtain ⟨t, ht, hj⟩ := List.mem_map.mp (List.of_mem_zip hz).2
  refine ⟨t, ht, ?_⟩
  unfold shown at hj
  split at hj
  · cases hj
  · cases hj
    rfl

theorem dumpFields_keys : ∀ (names : List String) (ts : List Tree),
    List.Sublist ((dumpFields names ts).map (·.1)) names
  | [], _ => by simp [dumpFields]
  | _ :: _, [] => by simp [dumpFields]
  | name :: names, t :: ts => by
    rw [dumpFields]
    split
    · exact (dumpFields_keys names ts).cons name
    · exact (dumpFields_keys names ts).cons_cons name

theorem heading_sound (kind : Kind) : ∀ f ∈ heading kind, Json.Sound f.2 := by
  unfold heading
  split <;> simp [Json.Sound.str]

/-- A dump has no key twice. -/
theorem Sound.dump {t : Tree} (h : t.Sound) : t.dump.Sound := by
  induction h with
  | plain value => exact value
  | token t => exact .str _
  | list each ih =>
    rw [Tree.dump, dumpAll_eq]
    exact .arr (List.forall_mem_map.mpr ih)
  | record kind each ih =>
    refine .obj ?_ (List.forall_mem_append.mpr ⟨heading_sound kind, fun f hf => ?_⟩)
    · rw [List.map_append]
      exact kind.keys_nodup.sublist ((dumpFields_keys _ _).append_left _)
    · obtain ⟨t, ht, hf⟩ := mem_dumpFields hf
      exact hf ▸ ih t ht

@[simp] theorem sound_plain {j : Json} : (Tree.plain j).Sound ↔ j.Sound :=
  ⟨fun h => by cases h with | plain value => exact value, .plain⟩

@[simp] theorem sound_record {kind : Kind} {fields : List Tree} :
    (Tree.record kind fields).Sound ↔ ∀ t ∈ fields, t.Sound :=
  ⟨fun h => by cases h with | record _ each => exact each, .record kind⟩

@[simp] theorem sound_str (s : String) : (Tree.str s).Sound := .plain (.str s)

@[simp] theorem sound_token (t : Token) : (Tree.token t).Sound := .token t

section

variable {α : Type} {f : α → Tree}

@[simp] theorem sound_treeOf {o : Option α} : (treeOf f o).Sound ↔ ∀ a ∈ o, (f a).Sound := by
  cases o with
  | none => exact ⟨fun _ => nofun, fun _ => .plain .null⟩
  | some a => exact ⟨fun h _ ha => Option.some.inj ha ▸ h, fun h => h a rfl⟩

@[simp] theorem sound_treesOf {xs : List α} : (treesOf f xs).Sound ↔ ∀ a ∈ xs, (f a).Sound := by
  refine ⟨fun h => ?_, fun h => .list (List.forall_mem_map.mpr h)⟩
  cases h with
  | list each => exact List.forall_mem_map.mp each

end

end Tree

/-! ## Parts of programs -/

open GraphScript.Tree

@[simp] theorem Latex.tree_sound (l : Latex) : l.tree.Sound := by simp [tree]

@[simp] theorem Interval.tree_sound (i : Interval) : i.tree.Sound := by simp [tree]

@[simp] theorem ClickableRule.tree_sound (r : ClickableRule) : r.tree.Sound := by simp [tree]

theorem OptionGroup.Faithful.flags_sound {g : OptionGroup} (h : g.Faithful Json.Sound) :
    ∀ f ∈ g.flags, f.tree.Sound := by
  intro f hf
  by_cases hk : g.kind = .histogramModeOption
  · obtain ⟨v, rfl, hv⟩ := h.given hk f hf
    exact .plain hv
  · obtain ⟨w, rfl⟩ := h.words hk f hf
    exact sound_str _

theorem OptionGroup.tree_sound {g : OptionGroup} (h : g.Faithful Json.Sound) : g.tree.Sound := by
  have hflags := h.flags_sound
  have hvalues := h.2
  cases g <;> simp_all [tree, flags, Carries, RegressionParameter.tree]

theorem Setting.tree_sound {s : Setting} (h : s.Faithful Json.Sound) : s.tree.Sound := by
  cases s with
  | flags words =>
    refine .record _ (List.forall_mem_singleton.mpr (sound_treesOf.mpr fun f hf => ?_))
    obtain ⟨w, rfl⟩ := h f hf
    exact sound_str _
  | _ => simp_all [tree, Faithful, NumberInterval.Faithful, NumberInterval.tree, ArrowMode.tree, Visibility.tree]

theorem Column.tree_sound {c : Column} (h : c.Faithful Json.Sound) : c.tree.Sound := by
  have hoptions : ∀ g ∈ c.options, g.tree.Sound := fun g hg => OptionGroup.tree_sound (h g hg)
  simpa [tree, SmallFlag.tree]

theorem Leaf.tree_sound {l : Leaf} (h : l.Faithful Json.Sound) : l.tree.Sound := by
  cases l with
  | table columns => simpa [tree] using fun c hc => Column.tree_sound (h c hc)
  | image value | note value => exact .record _ (List.forall_mem_singleton.mpr (.plain h))
  | simulation rules => simp [tree]
  | expression latex => simp [tree]

theorem Item.tree_sound {α : Type} {affix : α → Tree} {W : α → Prop} (ha : ∀ a, W a → (affix a).Sound) {i : Item α}
    (h : i.Faithful Json.Sound W) : (i.tree affix).Sound := by
  have haffix := ha _ h.1
  have hoptions : ∀ g ∈ i.options, g.tree.Sound := fun g hg => OptionGroup.tree_sound (h.2 g hg)
  simpa [tree, SmallFlag.tree, haffix]

theorem Folder.tree_sound {f : Folder} (h : f.Faithful Json.Sound) : f.tree.Sound := by
  have hchildren : ∀ i ∈ f.children, (i.tree Leaf.tree).Sound := fun i hi =>
    Item.tree_sound (fun _ => Leaf.tree_sound) (h.2 i hi)
  simpa [tree, h.1]

theorem Affix.tree_sound {a : Affix} (h : a.Faithful Json.Sound) : a.tree.Sound := by
  cases a with
  | leaf l => exact Leaf.tree_sound h
  | folder f => exact Folder.tree_sound h

theorem Line.tree_sound {l : Line} (h : l.Faithful Json.Sound) : l.tree.Sound := by
  cases l with
  | setting s => exact Setting.tree_sound h
  | item i => exact Item.tree_sound (fun _ => Affix.tree_sound) h

/-- What carries sound values has a sound dump. -/
theorem Program.dump_sound {p : Program} (h : p.Faithful Json.Sound) : p.dump.Sound := by
  have hlines : (Tree.list (p.lines.map Line.tree)).Sound := sound_treesOf.mpr fun l hl => Line.tree_sound (h l hl)
  exact .obj (List.nodup_singleton _) (List.forall_mem_singleton.mpr hlines.dump)

/-! ## Documents -/

theorem inherited_sound : Inherited Json.Sound where
  null := .null
  text := .str
  member h := Json.sound_arr.mp h
  field h := (Json.sound_obj.mp h).2

theorem translate_dump_sound {graphFlags : Bool} {state : Json} (hs : state.Sound) :
    Ensures (fun p => p.dump.Sound) (translate graphFlags state).result :=
  fun p hp => Program.dump_sound (translate_faithful inherited_sound hs p hp)

/-- The text of a dump is read as the dump, with one indent as with another. -/
theorem dump_reads_back {graphFlags : Bool} {state : Json} {p : Program} (hs : state.Sound)
    (hp : (translate graphFlags state).result = .ok p) (indent : Option Nat) :
    Json.read (p.dump.write (indent.map Json.spaces)) = .ok p.dump :=
  Json.read_write (Json.blankIndent_spaces indent) (translate_dump_sound hs p hp)

/-- A seed that is a list of unusual values: numbers that are not finite, one of thirty digits, a list without members
    and an object in an object, with text beyond the first plane. -/
theorem dump_reads_back_with_an_unusual_seed :
    let document := "\x7b\"version\": 8, \"randomSeed\": [NaN, -1e400, 5e-324, -123456789012345678901234567890, [], "
      ++ "\x7b\"\\u00e9\": \x7b\x7d, \"type\": \"\\ud83d\\ude00\\n\\u0000\"\x7d], "
      ++ "\"graph\": \x7b\"viewport\": \x7b\"xmin\": null, \"xmax\": 1, \"ymin\": 0, \"ymax\": 1\x7d\x7d\x7d"
    let seed : Json := .arr [.float .nan, .float (.infinity true), .float (.finite false ⟨1, by decide⟩),
      .int (-123456789012345678901234567890), .arr [], .obj [("\u00e9", .obj []), ("type", .str "😀\n\x00")]]
    let state : Json := .obj [("version", .int 8), ("randomSeed", seed),
      ("graph", .obj [("viewport", .obj [("xmin", .null), ("xmax", .int 1), ("ymin", .int 0), ("ymax", .int 1)])])]
    let p : Program := ⟨[.setting (.seed seed), .setting (.viewport (some ⟨.null, .int 1⟩) (some ⟨.int 0, .int 1⟩))]⟩
    Json.read document = .ok state ∧ state.Sound ∧ (translate false state).result = .ok p ∧
      Json.read (p.dump.write none) = .ok p.dump ∧ Json.read (p.dump.write (some (Json.spaces 3))) = .ok p.dump := by
  intro document seed state p
  have hr : Json.read document = .ok state := by
    rw [Json.read, String.toList_append, String.toList_append, String.toList_ofList, String.toList_ofList,
      String.toList_ofList]
    decide +kernel
  have hs : state.Sound := Json.read_sound document state hr
  have hp : (translate false state).result = .ok p := rfl
  exact ⟨hr, hs, hp, dump_reads_back hs hp none, dump_reads_back hs hp (some 3)⟩

/-! ## Documents as text -/

theorem convert_of_read {content : String} {state : Json} (hr : Json.read content = .ok state) (form : Form)
    (graphFlags : Bool) :
    (convert form graphFlags content).result = (translate graphFlags state).result.bind form.text := by
  simp only [convert, translateText, hr]

/-- A text is dumped when it is a document that can be translated. -/
theorem convert_dump_eq_ok {graphFlags : Bool} {content t : String}
    (h : (convert .dump graphFlags content).result = .ok t) :
    ∃ state p, state.Sound ∧ (translate graphFlags state).result = .ok p ∧
      p.dump.write (some (Json.spaces 2)) = t ∧ (convert .script graphFlags content).result = p.script := by
  cases hr : Json.read content with
  | error e =>
    simp only [convert, translateText, hr] at h
    cases h
  | ok state =>
    rw [convert_of_read hr] at h
    obtain ⟨p, hp, ht⟩ := bind_eq_ok.mp h
    refine ⟨state, p, Json.read_sound content state hr, hp, Except.ok.inj ht, ?_⟩
    rw [convert_of_read hr, hp]
    rfl

/-- Programs of documents are the same if their dumps are. Texts that are dumped as one text have one script, or
    neither has one, for one reason. A text that cannot be dumped is one that cannot be translated. -/
theorem dump_tells_program_and_script :
    (∀ (graphFlags graphFlags' : Bool) (state state' : Json) (p q : Program),
      (translate graphFlags state).result = .ok p → (translate graphFlags' state').result = .ok q →
        p.dump = q.dump → p = q) ∧
    (∀ (graphFlags graphFlags' : Bool) (content content' t : String),
      (convert .dump graphFlags content).result = .ok t → (convert .dump graphFlags' content').result = .ok t →
        (convert .script graphFlags content).result = (convert .script graphFlags' content').result) ∧
    ∀ (graphFlags : Bool) (content : String) (fault : Fault),
      (convert .dump graphFlags content).result = .error fault ↔
        (translateText graphFlags content).result = .error fault := by
  have hone (graphFlags graphFlags' : Bool) (state state' : Json) (p q : Program)
      (hp : (translate graphFlags state).result = .ok p) (hq : (translate graphFlags' state').result = .ok q) :
      p.dump = q.dump → p = q :=
    Program.dump_inj (translate_faithful inherited_true trivial p hp) (translate_faithful inherited_true trivial q hq)
  refine ⟨hone, fun graphFlags graphFlags' content content' t h h' => ?_, fun graphFlags content fault => ?_⟩
  · obtain ⟨state, p, hs, hp, ht, hscript⟩ := convert_dump_eq_ok h
    obtain ⟨state', q, hs', hq, ht', hscript'⟩ := convert_dump_eq_ok h'
    -- One text is read in one way only, so the dumps behind it are one.
    have hread : Json.read t = .ok p.dump := ht ▸ dump_reads_back hs hp (some 2)
    have hread' : Json.read t = .ok q.dump := ht' ▸ dump_reads_back hs' hq (some 2)
    have hdump : p.dump = q.dump := Except.ok.inj (hread.symm.trans hread')
    rw [hscript, hscript', hone _ _ _ _ p q hp hq hdump]
  · show (translateText graphFlags content).result.bind _ = _ ↔ _
    cases (translateText graphFlags content).result with
    | error fault' => simp [Except.bind]
    | ok p => exact ⟨nofun, nofun⟩

/-- Two documents of one program, whose seed looks like a setting and has no text; and a text that is no document. -/
theorem dump_tells_program_and_script_of_a_strange_seed :
    let content := "\x7b\"version\": 8, \"randomSeed\": \x7b\"type\": \"SeedSetting\", \"seed\": 1.5\x7d, "
      ++ "\"graph\": \x7b\"viewport\": \x7b\"xmin\": 0, \"xmax\": 1, \"ymin\": 0, \"ymax\": 1\x7d, "
      ++ "\"xAxisStep\": null\x7d\x7d"
    let content' := "\x7b\"graph\": \x7b\"polarMode\": 1, "
      ++ "\"viewport\": \x7b\"xmin\": 0, \"xmax\": 1, \"ymin\": 0, \"ymax\": 1\x7d\x7d,\n"
      ++ "\"randomSeed\": \x7b\"type\": \"SeedSetting\", \"seed\": 15e-1\x7d, \"version\": 8.0\x7d"
    let bounds : Json := .obj [("xmin", .int 0), ("xmax", .int 1), ("ymin", .int 0), ("ymax", .int 1)]
    let seed : Json := .obj [("type", .str "SeedSetting"),
      ("seed", .float (.finite false ⟨4609434218613702656, by decide⟩))]
    let state : Json := .obj [("version", .int 8), ("randomSeed", seed),
      ("graph", .obj [("viewport", bounds), ("xAxisStep", .null)])]
    let state' : Json := .obj [("graph", .obj [("polarMode", .int 1), ("viewport", bounds)]), ("randomSeed", seed),
      ("version", .float (.finite false ⟨4620693217682128896, by decide⟩))]
    let p : Program := ⟨[.setting (.seed seed), .setting (.viewport (some ⟨.int 0, .int 1⟩) (some ⟨.int 0, .int 1⟩))]⟩
    let t := p.dump.write (some (Json.spaces 2))
    (translate false state).result = .ok p ∧
      (∃ q, (translate true state').result = .ok q ∧ p.dump = q.dump ∧ p = q) ∧
      (convert .dump false content).result = .ok t ∧ (convert .dump true content').result = .ok t ∧
      (convert .script false content).result = .error .noMember ∧
      (convert .script false content).result = (convert .script true content').result ∧
      (convert .dump true "[]]").result = .error (.unreadable (.malformed .extraData ⟨2, 1, 3⟩)) := by
  intro content content' bounds seed state state' p t
  have hr : Json.read content = .ok state := by
    rw [Json.read, String.toList_append, String.toList_append, String.toList_ofList, String.toList_ofList,
      String.toList_ofList]
    decide +kernel
  have hr' : Json.read content' = .ok state' := by
    rw [Json.read, String.toList_append, String.toList_append, String.toList_ofList, String.toList_ofList,
      String.toList_ofList]
    decide +kernel
  have hp : (translate false state).result = .ok p := rfl
  have hq : (translate true state').result = .ok p := by decide +kernel
  have ht : (convert .dump false content).result = .ok t := by
    rw [convert_of_read hr, hp]
    rfl
  have ht' : (convert .dump true content').result = .ok t := by
    rw [convert_of_read hr', hq]
    rfl
  have hscript : (convert .script false content).result = .error .noMember := by
    rw [convert_of_read hr, hp]
    rfl
  obtain ⟨hprogram, hscripts, hfault⟩ := dump_tells_program_and_script
  exact ⟨hp, ⟨p, hq, rfl, hprogram false true state state' p p hp hq rfl⟩, ht, ht', hscript,
    hscripts false true content content' t ht ht', (hfault true "[]]" _).mpr (by decide +kernel)⟩

end GraphScript
