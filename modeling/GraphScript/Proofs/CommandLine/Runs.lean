/-
  GraphScript.Proofs.CommandLine.Runs — a run does what it is asked for, or nothing.

  A run can end early in many places, and none of them comes after the single place where it writes
  or prints. A conversion that ends well prints its text or writes it to the one file that the
  request names; the first configuration of a folder is written only where nothing stands, so over
  any number of runs it is not written again.

  What is printed loses its control sequences on the way. A text that holds one is written to a file
  as it is, and printed without (`a_control_sequence_is_not_printed`).

  - `runs_do_all_or_nothing`
-/
import GraphScript.Proofs.Configuration

namespace GraphScript.Text

theorem withoutSequences_of_not_mem {cs : List Char} (h : '\x1b' ∉ cs) : withoutSequences [] cs = cs := by
  induction cs with
  | nil => rfl
  | cons c cs ih =>
    obtain ⟨hc, hcs⟩ := not_or.mp (mt List.mem_cons.mpr h)
    rw [withoutSequences, if_neg (by simp), if_neg (by simp), if_neg (Ne.symm hc), ih hcs]
    rfl

/-- A text without an escape character has no control sequences. -/
theorem plain_of_not_mem {s : String} (h : '\x1b' ∉ s.toList) : plain s = s := by
  rw [plain, withoutSequences_of_not_mem h, String.ofList_toList]

end GraphScript.Text

namespace GraphScript.CommandLine

open Faults

/-! ## Runs that fail -/

/-- If the run fails, it has printed nothing and left the disk alone. -/
def Report.LeavesAlone (r : Report) (d : Disk) : Prop :=
  r.exit ≠ 0 ∨ r.failure ≠ none → r.stdout = "" ∧ r.disk = d

section

variable {d : Disk} {name stderr text : String} {stdin : Stdin} {verbose : Bool}

theorem succeed_leaves (d disk : Disk) (stderr message : String) : (succeed disk stderr message).LeavesAlone d := by
  rintro (h | h)
  · exact absurd rfl h
  · exact absurd rfl h

theorem ending_leaves (d : Disk) (stderr : String) (ending : Ending) : (ending.report d stderr).LeavesAlone d := by
  cases ending <;> exact fun _ => ⟨rfl, rfl⟩

theorem ending_exit (d : Disk) (stderr : String) (ending : Ending) : (ending.report d stderr).exit ≠ 0 := by
  cases ending <;> exact nofun

theorem deliver_leaves (target : Option String) : (deliver d stderr text target).LeavesAlone d := by
  cases target with
  | none => exact succeed_leaves _ _ _ _
  | some path =>
    unfold deliver
    dsimp only
    split
    · exact succeed_leaves _ _ _ _
    · exact ending_leaves _ _ _

theorem runConvert_leaves (r : Request) : (runConvert d name stdin verbose r).LeavesAlone d := by
  unfold runConvert
  split
  · exact ending_leaves _ _ _
  · unfold runConversion
    split
    · exact ending_leaves _ _ _
    · dsimp only
      split
      · exact deliver_leaves _
      · exact ending_leaves _ _ _

theorem runInit_leaves : (runInit d name).LeavesAlone d := by
  unfold runInit
  split
  · exact succeed_leaves _ _ _ _
  · dsimp only
    split
    · exact succeed_leaves _ _ _ _
    · exact ending_leaves _ _ _

theorem run_leaves (d : Disk) (name : String) (stdin : Stdin) (arguments : List String) :
    (run d name stdin arguments).LeavesAlone d := by
  unfold run
  split
  · exact ending_leaves _ _ _
  · exact succeed_leaves _ _ _ _
  · exact succeed_leaves _ _ _ _
  · exact runInit_leaves
  · exact runConvert_leaves _

/-! ## Conversions -/

/-- What is to be converted: standard input for a dash, or else the file with this name. -/
def IsSource (d : Disk) (stdin : Stdin) (input content : String) : Prop :=
  if input = "-" then content = stdin.read else d.read input = .ok content

/-- Where the text is to go: a file that is named comes before the one beside the input. -/
def Request.GoesTo (r : Request) (input suffix : String) : Option String → Prop
  | none => r.output = none ∧ r.write = false
  | some path => r.output = some path ∨ r.output = none ∧ r.write = true ∧ PathText.withSuffix? input suffix = some path

/-- What has happened to a text: it is printed, or it is the one file that has changed. -/
def Delivered (d : Disk) (text : String) (report : Report) : Option String → Prop
  | none => report.disk = d ∧ report.stdout = Text.plain (text ++ "\n") ∧
      ('\x1b' ∉ text.toList → report.stdout = text ++ "\n")
  | some path => report.stdout = line ("Wrote: " ++ path) ∧ ∃ p, d.resolve (PathText.tidy path) = .ok p ∧
      report.disk.node p = .file (text ++ "\n") ∧ ∀ q, q ≠ p → report.disk.node q = d.node q

/-- What a conversion has done that ends well. -/
def Converted (d : Disk) (name : String) (stdin : Stdin) (r : Request) (report : Report) : Prop :=
  ∃ (input : String) (form : Form) (config : Config) (content text : String) (target : Option String),
    r.operands = [input] ∧ r.form? = some form ∧ Config.loadOrDefault d name = .ok config ∧
    IsSource d stdin input content ∧ r.GoesTo input config.outputSuffix target ∧
    (convert form (r.graphFlags.getD config.graphFlags) content).result = .ok text ∧ Delivered d text report target

theorem deliver_delivers {target : Option String} (h : (deliver d stderr text target).exit = 0) :
    Delivered d text (deliver d stderr text target) target := by
  cases target with
  | none =>
    refine ⟨rfl, rfl, fun hn => Text.plain_of_not_mem ?_⟩
    rw [String.toList_append, List.mem_append, not_or]
    exact ⟨hn, by decide⟩
  | some path =>
    unfold deliver at h ⊢
    dsimp only at h ⊢
    cases hw : d.write path (text ++ "\n") with
    | ok written =>
      obtain ⟨p, hp, -, hnode, hothers⟩ := Disk.node_of_write hw
      exact ⟨rfl, p, hp, hnode, hothers⟩
    | error fault =>
      rw [hw] at h
      exact absurd h (ending_exit _ _ _)

theorem conversion_eq_ok {r : Request} {c : Conversion} (h : conversion d r = .ok c) : r.operands = [c.input] ∧
    r.form? = some c.form ∧ c.output = r.output ∧ c.write = r.write ∧ c.graphFlags = r.graphFlags := by
  obtain ⟨_, -, h⟩ := bind_eq_ok.mp h
  split at h
  · rename_i hhead
    obtain ⟨_, -, h⟩ := bind_eq_ok.mp h
    split at h
    · rename_i hform hoperands
      rw [hoperands] at hhead
      cases hhead
      cases h
      exact ⟨hoperands, hform, rfl, rfl, rfl⟩
    · cases h
  · cases h

theorem source_eq_ok {c : Conversion} {content : String} (h : source d stdin c = .ok content) :
    IsSource d stdin c.input content := by
  unfold source at h
  unfold IsSource
  split at h
  · rename_i hi
    rw [if_pos hi]
    exact (Except.ok.inj h).symm
  · rename_i hi
    rw [if_neg hi]
    split at h
    · cases h
    · cases hr : d.read c.input with
      | ok found =>
        rw [hr] at h
        exact congrArg _ (Except.ok.inj h)
      | error fault =>
        rw [hr] at h
        cases h

theorem target_eq_ok {c : Conversion} {r : Request} {suffix : String} {target : Option String}
    (ho : c.output = r.output) (hw : c.write = r.write) (h : CommandLine.target c suffix = .ok target) :
    r.GoesTo c.input suffix target := by
  unfold CommandLine.target at h
  split at h
  · rename_i hout
    cases h
    exact .inl (ho.symm.trans hout)
  · rename_i hout hwrite
    cases h
    exact ⟨ho.symm.trans hout, hw.symm.trans hwrite⟩
  · cases h
  · rename_i hout hwrite _
    split at h
    · rename_i hpath
      cases h
      exact .inr ⟨ho.symm.trans hout, hw.symm.trans hwrite, hpath⟩
    · cases h

theorem prepare_eq_ok {c : Conversion} {content : String} {graphFlags : Bool} {target : Option String}
    (h : prepare d name stdin c = .ok (content, graphFlags, target)) :
    ∃ config, Config.loadOrDefault d name = .ok config ∧ source d stdin c = .ok content ∧
      c.graphFlags.getD config.graphFlags = graphFlags ∧ CommandLine.target c config.outputSuffix = .ok target := by
  simp only [prepare, bind_eq_ok, pure_eq, Except.ok.injEq, Prod.mk.injEq] at h
  obtain ⟨config, hc, _, hs, _, ht, rfl, rfl, rfl⟩ := h
  refine ⟨config, ?_, hs, rfl, ht⟩
  cases hl : Config.loadOrDefault d name with
  | ok found =>
    rw [hl] at hc
    exact congrArg _ (Except.ok.inj hc)
  | error fault =>
    rw [hl] at hc
    cases hc

theorem prepare_ok {c : Conversion} {content : String} {config : Config} {target : Option String}
    (hconfig : Config.loadOrDefault d name = .ok config) (hsource : source d stdin c = .ok content)
    (htarget : CommandLine.target c config.outputSuffix = .ok target) :
    prepare d name stdin c = .ok (content, c.graphFlags.getD config.graphFlags, target) := by
  unfold prepare
  rw [hconfig, hsource]
  show (CommandLine.target c config.outputSuffix >>= _) = _
  rw [htarget]
  rfl

theorem runConvert_converts {r : Request} (h : (runConvert d name stdin verbose r).exit = 0) :
    Converted d name stdin r (runConvert d name stdin verbose r) := by
  unfold runConvert at h ⊢
  cases hc : conversion d r with
  | error ending =>
    rw [hc] at h
    exact absurd h (ending_exit _ _ _)
  | ok c =>
    rw [hc] at h
    obtain ⟨hoperands, hform, hout, hwrite, hflags⟩ := conversion_eq_ok hc
    dsimp only at h ⊢
    unfold runConversion at h ⊢
    cases hp : prepare d name stdin c with
    | error ending =>
      rw [hp] at h
      exact absurd h (ending_exit _ _ _)
    | ok prepared =>
      obtain ⟨content, graphFlags, target⟩ := prepared
      obtain ⟨config, hconfig, hsource, rfl, htarget⟩ := prepare_eq_ok hp
      rw [hp] at h
      dsimp only at h ⊢
      cases ht : (convert c.form (c.graphFlags.getD config.graphFlags) content).result with
      | error fault =>
        rw [ht] at h
        exact absurd h (ending_exit _ _ _)
      | ok text =>
        rw [ht] at h
        rw [hflags] at ht
        exact ⟨c.input, c.form, config, content, text, target, hoperands, hform, hconfig, source_eq_ok hsource,
          target_eq_ok hout hwrite htarget, ht, deliver_delivers h⟩

/-! ## Configurations -/

/-- What the first run of `init` in a folder has changed: the configuration, and the folder that it lies in. -/
def Initialized (d : Disk) (report : Report) : Prop :=
  (report.exit = 0 → d.node (Config.path d) = .missing →
    report.disk.node (Config.path d) = .file (Config.text {})) ∧
  ∀ q, report.disk.node q ≠ d.node q →
    d.node (Config.path d) = .missing ∧ (q = Config.path d ∨ q = Config.folder d ∧ report.disk.node q = .folder)

theorem runInit_again (h : d.node (Config.path d) ≠ .missing) : (runInit d name).disk = d := by
  rw [runInit, if_pos (Config.isInitialized_iff.mpr h)]
  rfl

/-- The parts of the path of a configuration are the working folder and what it lies in, and its own folder. -/
theorem prefix_of_path {q : Path} (h : q <+: Config.path d) (hne : q ≠ Config.path d) :
    q = Config.folder d ∨ q <+: d.here := by
  have hfolder : (Config.path d).dropLast = Config.folder d := List.dropLast_concat
  have hhere : (Config.folder d).dropLast = d.here := List.dropLast_concat
  by_cases hq : q = Config.folder d
  · exact .inl hq
  · exact .inr (hhere ▸ Disk.prefix_dropLast (hfolder ▸ Disk.prefix_dropLast h hne) hq)

theorem runInit_initializes : Initialized d (runInit d name) := by
  by_cases hi : d.node (Config.path d) = .missing
  · have hno : ¬ Config.isInitialized d = true := fun h => Config.isInitialized_iff.mp h hi
    unfold runInit
    rw [if_neg hno]
    dsimp only
    cases hs : Config.save d (.bool ({} : Config).graphFlags) (.str ({} : Config).outputSuffix) with
    | error fault => exact ⟨fun h => absurd h (ending_exit _ _ _), fun q hq => absurd rfl hq⟩
    | ok saved =>
      obtain ⟨-, rfl⟩ := Disk.writePath_eq_ok.mp (Config.save_eq_ok.mp hs).2
      refine ⟨fun _ _ => ?_, fun q hq => ⟨hi, ?_⟩⟩
      · exact (Disk.node_written _ _ _ _).trans (if_pos rfl)
      · dsimp only [succeed] at hq ⊢
        rw [Disk.node_written] at hq ⊢
        by_cases hp : q = Config.path d
        · exact .inl hp
        · rw [if_neg hp] at hq ⊢
          by_cases hm : d.node q = .missing ∧ q <+: Config.path d
          · refine .inr ⟨(prefix_of_path hm.2 hp).resolve_right fun hhere => ?_, if_pos hm⟩
            have hf := Disk.isFolder_above hhere (Disk.isFolder_iff.mpr (.inl (List.prefix_refl d.here)))
            rw [Disk.not_isFolder_of_node hm.1] at hf
            cases hf
          · rw [if_neg hm] at hq
            exact absurd rfl hq
  · refine ⟨fun _ h => absurd h hi, fun q hq => ?_⟩
    rw [runInit_again hi] at hq
    exact absurd rfl hq

/-! ## One run after another -/

/-- The disk after these runs, each with its standard input and its arguments. -/
def session (name : String) (d : Disk) : List (Stdin × List String) → Disk
  | [] => d
  | (stdin, arguments) :: rest => session name (run d name stdin arguments).disk rest

/-- Nothing that was there is gone. -/
def Keeps (d d' : Disk) : Prop := d'.here = d.here ∧ ∀ q, d.node q ≠ .missing → d'.node q ≠ .missing

theorem Keeps.refl (d : Disk) : Keeps d d := ⟨rfl, fun _ h => h⟩

theorem Keeps.trans {a b c : Disk} (h : Keeps a b) (h' : Keeps b c) : Keeps a c :=
  ⟨h'.1.trans h.1, fun q hq => h'.2 q (h.2 q hq)⟩

theorem keeps_of_writePath {d' : Disk} {p : Path} {content : String} (h : d.writePath p content = .ok d') :
    Keeps d d' := by
  obtain ⟨-, rfl⟩ := Disk.writePath_eq_ok.mp h
  refine ⟨rfl, fun q hq => ?_⟩
  rw [Disk.node_written]
  split
  · exact nofun
  · rw [if_neg fun h => hq h.1]
    exact hq

theorem keeps_of_write {d' : Disk} {path content : String} (h : d.write path content = .ok d') : Keeps d d' := by
  obtain ⟨p, -, h⟩ := bind_eq_ok.mp h
  exact keeps_of_writePath h

theorem ending_disk (d : Disk) (stderr : String) (ending : Ending) : (ending.report d stderr).disk = d := by
  cases ending <;> rfl

theorem runConvert_keeps (r : Request) : Keeps d (runConvert d name stdin verbose r).disk := by
  by_cases h : (runConvert d name stdin verbose r).exit = 0
  · unfold runConvert at h ⊢
    split
    · rw [ending_disk]
      exact .refl d
    · unfold runConversion
      split
      · rw [ending_disk]
        exact .refl d
      · dsimp only
        split
        · unfold deliver
          split
          · exact .refl d
          · split
            · rename_i hw
              exact keeps_of_write hw
            · exact .refl d
        · rw [ending_disk]
          exact .refl d
  · rw [(runConvert_leaves r (.inl h)).2]
    exact .refl d

theorem runInit_keeps : Keeps d (runInit d name).disk := by
  unfold runInit
  split
  · exact .refl d
  · dsimp only
    split
    · rename_i hs
      exact keeps_of_writePath (Config.save_eq_ok.mp hs).2
    · exact .refl d

/-- One run removes nothing. -/
theorem run_keeps (d : Disk) (name : String) (stdin : Stdin) (arguments : List String) :
    Keeps d (run d name stdin arguments).disk := by
  unfold run
  split
  · exact .refl d
  · exact .refl d
  · exact .refl d
  · exact runInit_keeps
  · exact runConvert_keeps _

theorem session_keeps (d : Disk) (name : String) (runs : List (Stdin × List String)) :
    Keeps d (session name d runs) := by
  induction runs generalizing d with
  | nil => exact .refl d
  | cons first rest ih => exact (run_keeps d name first.1 first.2).trans (ih _)

/-- A configuration that is there stays through any runs, and `init` leaves it as it is then. -/
theorem runInit_after (d : Disk) (runs : List (Stdin × List String)) (h : d.node (Config.path d) ≠ .missing) :
    (runInit (session name d runs) name).disk = session name d runs := by
  obtain ⟨hhere, hnodes⟩ := session_keeps d name runs
  refine runInit_again ?_
  have hpath : Config.path (session name d runs) = Config.path d := by rw [Config.path, Config.folder, hhere]; rfl
  rw [hpath]
  exact hnodes _ h

end

/-! ## All runs -/

/-- A run that fails prints nothing and changes nothing. A conversion that ends well prints its text and changes
    nothing, or writes its text to the one file that it is asked to write to and changes nothing else; what is printed
    is the text without control sequences. `init` writes the configuration of the folder if there is none, and changes
    nothing if there is one, whatever it holds and whatever was run before. -/
theorem runs_do_all_or_nothing (d : Disk) (name : String) (stdin : Stdin) (arguments : List String) :
    ((run d name stdin arguments).exit ≠ 0 ∨ (run d name stdin arguments).failure ≠ none →
      (run d name stdin arguments).stdout = "" ∧ (run d name stdin arguments).disk = d) ∧
    (∀ verbose r, readInvocation arguments = some ⟨verbose, .convert r⟩ → (run d name stdin arguments).exit = 0 →
      Converted d name stdin r (run d name stdin arguments)) ∧
    (∀ verbose, readInvocation arguments = some ⟨verbose, .init⟩ →
      Initialized d (run d name stdin arguments) ∧
      ∀ before runs, before.node (Config.path before) ≠ .missing → d = session name before runs →
        (run d name stdin arguments).disk = d) := by
  refine ⟨run_leaves d name stdin arguments, fun verbose r hr hexit => ?_, fun verbose hr => ?_⟩
  · have hrun : run d name stdin arguments = runConvert d name stdin verbose r := by rw [run, hr]
    rw [hrun] at hexit ⊢
    exact runConvert_converts hexit
  · have hrun : run d name stdin arguments = runInit d name := by rw [run, hr]
    rw [hrun]
    refine ⟨runInit_initializes, ?_⟩
    rintro before runs hb rfl
    exact runInit_after before runs hb

/-- A script goes to the named file and not beside the document; a run without a document fails; the configuration
    that a conversion has overwritten with a script stays so. -/
theorem runs_do_all_or_nothing_over_a_configuration :
    let document := "\x7b\"version\": 8, " ++
      "\"graph\": \x7b\"viewport\": \x7b\"xmin\": 0, \"xmax\": 1, \"ymin\": 0, \"ymax\": 1\x7d\x7d\x7d"
    let d : Disk := ⟨["a"], [(["a", "g.json"], document)], []⟩
    let r : Request := ⟨[(.write, ""), (.output, "out")], ["g.json"]⟩
    let before := (run d "a" "" ["init"]).disk
    let after := session "a" before [("", ["convert", "g.json", "-o", ".desmos-text/config.json"])]
    ((run d "a" "" ["convert", "h.json"]).stdout = "" ∧ (run d "a" "" ["convert", "h.json"]).disk = d) ∧
      (run d "a" "" ["convert", "g.json", "-wo", "out"]).exit = 0 ∧
      Converted d "a" "" r (run d "a" "" ["convert", "g.json", "-wo", "out"]) ∧
      (run d "a" "" ["convert", "g.json", "-wo", "out"]).disk.node ["a", "out"] =
        .file "viewport: x [0:1], y [0:1]\n" ∧
      before.node (Config.path before) = .file (Config.text {}) ∧
      after.node (Config.path after) = .file "viewport: x [0:1], y [0:1]\n" ∧
      (run after "a" "" ["init"]).disk = after := by
  intro document d r before after
  have hexit : (run d "a" "" ["convert", "g.json", "-wo", "out"]).exit = 0 := by decide +kernel
  have hbefore : before.node (Config.path before) = .file (Config.text {}) := by decide +kernel
  exact ⟨(runs_do_all_or_nothing d "a" "" ["convert", "h.json"]).1 (.inl (by decide +kernel)), hexit,
    (runs_do_all_or_nothing d "a" "" _).2.1 false r (by decide +kernel) hexit, by decide +kernel, hbefore,
    by decide +kernel, ((runs_do_all_or_nothing after "a" "" ["init"]).2.2 false (by decide +kernel)).2 before _
      (fun h => nomatch hbefore.symm.trans h) rfl⟩

/-- A seed can hold a sequence that makes a terminal write in bold. In a file it stays; what is printed is not the
    converted text. -/
theorem a_control_sequence_is_not_printed :
    let document := "\x7b\"version\": 8, \"randomSeed\": \"\\u001b[1mbold\", " ++
      "\"graph\": \x7b\"viewport\": \x7b\"xmin\": 0, \"xmax\": 1, \"ymin\": 0, \"ymax\": 1\x7d\x7d\x7d"
    let d : Disk := ⟨["a"], [(["a", "g.json"], document)], []⟩
    let text := "seed: \"\x1b[1mbold\"\nviewport: x [0:1], y [0:1]"
    (convert .script false document).result.toOption = some text ∧
      (run d "a" "" ["convert", "g.json"]).exit = 0 ∧
      (run d "a" "" ["convert", "g.json"]).stdout = "seed: \"bold\"\nviewport: x [0:1], y [0:1]\n" ∧
      (run d "a" "" ["convert", "g.json"]).stdout ≠ text ++ "\n" ∧
      (run d "a" "" ["convert", "g.json", "-o", "g.dest"]).disk.node ["a", "g.dest"] = .file (text ++ "\n") := by
  decide +kernel

end GraphScript.CommandLine
