/-
  GraphScript.Proofs.CommandLine.Beside — writing beside a document.

  What a document is converted to goes beside it, under the suffix of the configuration. A suffix is
  accepted if it starts with a dot. That is not enough for what is done with it:
  - the suffix may be the one that the document has. Then the text takes the place of the document
    (`a_document_is_overwritten`). Under every other suffix the document stays as it is;
  - the suffix may be the dot alone or have a slash. Then there is no place beside the document, and
    nobody tells of it: the failure is left to the caller (`an_accepted_suffix_fails`). A null
    character in it is found only by writing. Every other suffix has its place.

  - `other_suffixes_spare_the_document`
  - `suffixes_have_their_place`
-/
import GraphScript.Proofs.CommandLine.Refusals
import GraphScript.Proofs.CommandLine.Routes
import GraphScript.Proofs.Disk.Suffixes

namespace GraphScript

open Faults

namespace Config

/-- A configuration is the standard one, or accepted for its dot. -/
theorem loadOrDefault_dotted {d : Disk} {name : String} {c : Config} (h : loadOrDefault d name = .ok c) :
    PathText.IsDotted c.outputSuffix := by
  unfold loadOrDefault at h
  split at h
  · unfold load at h
    split at h
    · rename_i text _
      obtain ⟨c', hok, hdot⟩ | ⟨fault, hrefused⟩ | ⟨n, hlong, -⟩ := ofText_cases (place name) text
      · obtain rfl := Except.ok.inj (hok.symm.trans h)
        exact hdot
      · exact absurd (hrefused.symm.trans h) nofun
      · exact absurd (hlong.symm.trans h) nofun
    · cases h
    · cases h
  · cases h
    rfl

end Config

namespace CommandLine

open PathText

/-- The request asks for a file beside its operand, which is the name of a file that is there. -/
structure Request.Beside (d : Disk) (r : Request) (input : String) (p : Path) (content : String) : Prop where
  operands : r.operands = [input]
  write : r.write = true
  output : r.output = none
  /-- A dash alone is no name, but standard input. -/
  named : input ≠ "-"
  resolve : d.resolve input = .ok p
  file : d.node p = .file content

section

variable {d : Disk} {name stderr input content path text : String} {stdin : Stdin} {arguments : List String}
  {verbose : Bool} {r : Request} {form : Form} {config : Config} {p : Path}

theorem run_convert (d : Disk) (name : String) (stdin : Stdin)
    (hr : readInvocation arguments = some ⟨verbose, .convert r⟩) :
    run d name stdin arguments = runConvert d name stdin verbose r := by
  rw [run, hr]

namespace Request.Beside

theorem nodeNamed (h : r.Beside d input p content) : d.nodeNamed input = .ok (.file content) :=
  map_eq_ok.mpr ⟨p, h.resolve, h.file⟩

theorem supplies (h : r.Beside d input p content) (hsuffix : suffix input ≠ ".dest") :
    Supplies d stdin input content := by
  rw [Supplies, if_neg h.named]
  exact ⟨h.nodeNamed, hsuffix⟩

/-- The place beside the input is the only one that the text can go to. -/
theorem goesTo_iff (h : r.Beside d input p content) {target : Option String} :
    r.GoesTo input config.outputSuffix target ↔
      ∃ path, target = some path ∧ withSuffix? input config.outputSuffix = some path := by
  cases target with
  | none =>
    refine iff_of_false (fun hgoes => ?_) fun hpath => nomatch hpath.choose_spec.1
    exact absurd (h.write.symm.trans hgoes.2) nofun
  | some path =>
    constructor
    · rintro (hout | ⟨-, -, hpath⟩)
      · exact absurd (h.output.symm.trans hout) nofun
      · exact ⟨path, rfl, hpath⟩
    · rintro ⟨other, hother, hpath⟩
      cases hother
      exact .inr ⟨h.output, h.write, hpath⟩

theorem conversion_eq (h : r.Beside d input p content) (hform : r.form? = some form) :
    conversion d r = .ok ⟨input, r.output, r.write, form, r.graphFlags⟩ := by
  have hinput : checkInput d input = .ok () := by
    rw [checkInput, if_neg h.named, h.nodeNamed]
  have houtput : checkOption d r .output = .ok () := by
    unfold checkOption
    rw [h.output]
  exact conversion_of_checks h.operands hinput houtput hform

end Request.Beside

/-! ## Other suffixes -/

/-- Where the input is a script by its name, nothing is converted. -/
theorem runConvert_script (h : r.Beside d input p content) (hconfig : Config.loadOrDefault d name = .ok config)
    (hscript : suffix input = ".dest") : (runConvert d name stdin verbose r).disk = d := by
  unfold runConvert
  cases hc : conversion d r with
  | error ending => exact ending_disk _ _ _
  | ok c =>
    have hinput : c.input = input := by
      have hoperands := (conversion_eq_ok hc).1
      rw [h.operands] at hoperands
      exact (List.cons.inj hoperands).1.symm
    have hsource : source d stdin c = .error (.told "Converting DEST back to JSON is not supported.") := by
      rw [source, hinput, if_neg h.named, if_pos hscript]
    dsimp only
    unfold runConversion prepare
    rw [hconfig, hsource]
    exact ending_disk _ _ _

/-- Nothing is written to the document unless the suffix is its own. -/
theorem runConvert_spares (h : r.Beside d input p content) (hconfig : Config.loadOrDefault d name = .ok config)
    (hother : config.outputSuffix ≠ suffix input) :
    (runConvert d name stdin verbose r).disk.node p = .file content := by
  by_cases hexit : (runConvert d name stdin verbose r).exit = 0
  · obtain ⟨input', form, config', content', text, target, hoperands, -, hconfig', -, hgoes, -, hdelivered⟩ :=
      runConvert_converts hexit
    obtain rfl : input = input' := (List.cons.inj (h.operands.symm.trans hoperands)).1
    obtain rfl := Except.ok.inj (hconfig.symm.trans hconfig')
    obtain ⟨path, rfl, hpath⟩ := h.goesTo_iff.mp hgoes
    obtain ⟨-, q, hq, -, hothers⟩ := hdelivered
    have hne : q ≠ p := fun heq => hother
      ((Disk.resolve_withSuffix h.resolve h.file (Config.loadOrDefault_dotted hconfig) hpath hq).mp heq)
    rw [hothers p hne.symm, h.file]
  · rw [(runConvert_leaves r (.inl hexit)).2, h.file]

/-- The own suffix of the document is a place, and it is that of the document. -/
theorem way_over (h : r.Beside d input p content) (hconfig : Config.loadOrDefault d name = .ok config)
    (hown : config.outputSuffix = suffix input) (hsuffix : config.outputSuffix ≠ ".dest") :
    Way d stdin r input content config.outputSuffix (some (tidy input)) where
  operands := h.operands
  supplies := h.supplies (hown ▸ hsuffix)
  goesTo := by
    have hne : suffix input ≠ "" := hown ▸ (Config.loadOrDefault_dotted hconfig).ne_empty
    rw [h.goesTo_iff, hown]
    exact ⟨tidy input, rfl, withSuffix?_suffix hne⟩
  beside hi := absurd hi h.named
  takes := ⟨p, Disk.resolve_tidy (Disk.resolve_tidy h.resolve), fun hfolder => nomatch h.file.symm.trans hfolder⟩

/-- The text takes the place of the document, if there is one. -/
theorem runConvert_overwrites (stdin : Stdin) (verbose : Bool) (h : r.Beside d input p content)
    (hform : r.form? = some form) (hconfig : Config.loadOrDefault d name = .ok config)
    (hown : config.outputSuffix = suffix input) (hsuffix : config.outputSuffix ≠ ".dest") :
    let converted := convert form (r.switches.getLast?.getD config.graphFlags) (Text.read content)
    let after := (runConvert d name stdin verbose r).disk.node p
    (∀ text, converted.result = .ok text → after = .file (text ++ "\n")) ∧
      ∀ fault, converted.result = .error fault → after = .file content := by
  intro converted after
  have hgiven : convert form (r.switches.getLast?.getD config.graphFlags) (handed stdin input content) = converted :=
    congrArg _ (handed_of_translated (.inl h.named))
  have hanswers : Answers d verbose (some (tidy input)) converted (runConvert d name stdin verbose r) :=
    hgiven ▸ runConvert_answers hform hconfig (way_over h hconfig hown hsuffix)
  constructor
  · intro text htext
    obtain ⟨-, -, -, q, hq, hnode, -⟩ := hanswers.delivered text htext
    rw [Disk.resolve_tidy (Disk.resolve_tidy h.resolve)] at hq
    cases hq
    exact hnode
  · intro fault hfault
    show (runConvert d name stdin verbose r).disk.node p = _
    rw [(hanswers.told fault hfault).2, ending_disk, h.file]

/-! ## Suffixes without a place -/

theorem target_placeless {c : Conversion} {suffix : String} (hout : c.output = none) (hwrite : c.write = true)
    (hinput : c.input ≠ "-") (hnone : withSuffix? c.input suffix = none) :
    target c suffix = .error (.failed (.suffix suffix)) := by
  unfold target
  rw [hout, hwrite]
  split
  · contradiction
  · contradiction
  · rename_i hdash
    exact absurd hdash hinput
  · rw [hnone]

theorem runConvert_placeless (h : r.Beside d input p content) (hform : r.form? = some form)
    (hconfig : Config.loadOrDefault d name = .ok config) (hsuffix : suffix input ≠ ".dest")
    (hnone : withSuffix? input config.outputSuffix = none) :
    runConvert d name stdin verbose r = ⟨1, "", "", d, some (.suffix config.outputSuffix)⟩ := by
  let c : Conversion := ⟨input, r.output, r.write, form, r.graphFlags⟩
  have htarget : target c config.outputSuffix = .error (.failed (.suffix config.outputSuffix)) :=
    target_placeless (c := c) h.output h.write h.named hnone
  have hprepare : prepare d name stdin c = .error (.failed (.suffix config.outputSuffix)) := by
    rw [prepare, hconfig, source_of_supplies (h.supplies hsuffix)]
    show (target c config.outputSuffix >>= _) = _
    rw [htarget, error_bind]
  rw [runConvert, h.conversion_eq hform]
  dsimp only
  rw [runConversion, hprepare]
  rfl

/-- Where there is a place, the text is delivered to it, or the fault of the document is told. -/
theorem runConvert_beside (stdin : Stdin) (verbose : Bool) (h : r.Beside d input p content)
    (hform : r.form? = some form) (hconfig : Config.loadOrDefault d name = .ok config)
    (hsuffix : suffix input ≠ ".dest") (hpath : withSuffix? input config.outputSuffix = some path) :
    let converted := convert form (r.switches.getLast?.getD config.graphFlags) (Text.read content)
    ∃ stderr, runConvert d name stdin verbose r = match converted.result with
      | .ok text => deliver d stderr text (some path)
      | .error fault => (Fault.ending fault).report d stderr := by
  intro converted
  have htarget : target ⟨input, r.output, r.write, form, r.graphFlags⟩ config.outputSuffix = .ok (some path) :=
    target_of_goesTo (h.goesTo_iff.mpr ⟨path, rfl, hpath⟩) fun hi => absurd hi h.named
  rw [runConvert, h.conversion_eq hform]
  dsimp only
  rw [runConversion, prepare_ok hconfig (source_of_supplies (h.supplies hsuffix)) htarget, graphFlags_eq,
    handed_of_translated (.inl h.named)]
  exact ⟨_, rfl⟩

theorem ending_failure (d : Disk) (stderr : String) (fault : Fault) {failure : Failure}
    (h : ((Fault.ending fault).report d stderr).failure = some failure) : failure = .document fault := by
  unfold Fault.ending at h
  split at h
  · cases h
  · exact (Option.some.inj h).symm

theorem write_null_iff : d.write path text = .error .nullCharacter ↔ '\x00' ∈ (tidy path).toList := by
  constructor
  · intro h
    cases hp : d.resolve (tidy path) with
    | ok q =>
      have hwrite : d.writePath q text = .error .nullCharacter := by
        rw [Disk.write, hp] at h
        exact h
      unfold Disk.writePath at hwrite
      split at hwrite
      · cases hwrite
      · cases hwrite
    | error fault =>
      rw [Disk.write, hp] at h
      cases Except.error.inj h
      exact Disk.null_mem_of_resolve hp
  · intro h
    rw [Disk.write, Disk.resolve, if_pos (List.contains_iff_mem.mpr h)]
    rfl

/-- Writing to a file fails only in what the file system says. -/
theorem deliver_failure {failure : Failure} : (deliver d stderr text (some path)).failure = some failure ↔
    ∃ fault, d.write path (text ++ "\n") = .error fault ∧ failure = .file fault := by
  unfold deliver
  dsimp only
  cases d.write path (text ++ "\n") with
  | ok written => exact iff_of_false nofun nofun
  | error fault => exact ⟨fun h => ⟨fault, rfl, (Option.some.inj h).symm⟩, fun ⟨_, h, hf⟩ => by cases h; rw [hf]; rfl⟩

/-- Beside the document the null character is in the way exactly where the suffix has it. -/
theorem deliver_null (h : r.Beside d input p content) (hconfig : Config.loadOrDefault d name = .ok config)
    (hpath : withSuffix? input config.outputSuffix = some path) :
    (deliver d stderr text (some path)).failure = some (.file .nullCharacter) ↔
      '\x00' ∈ config.outputSuffix.toList := by
  have hmem := mem_tidy_withSuffix (c := '\x00') (Disk.names_ne_nil h.resolve h.file)
    (Config.loadOrDefault_dotted hconfig) hpath (by decide) (by decide) (Disk.null_not_mem_of_resolve h.resolve)
  rw [deliver_failure]
  constructor
  · rintro ⟨fault, hwrite, hfault⟩
    cases hfault
    exact hmem.mp (write_null_iff.mp hwrite)
  · intro hnull
    exact ⟨.nullCharacter, write_null_iff.mpr (hmem.mpr hnull), rfl⟩

/-- Where there is a place, the run fails in what the file system says, or in the document. -/
theorem runConvert_failures (h : r.Beside d input p content) (hform : r.form? = some form)
    (hconfig : Config.loadOrDefault d name = .ok config) (hsuffix : suffix input ≠ ".dest")
    (hpath : withSuffix? input config.outputSuffix = some path) :
    let converted := convert form (r.switches.getLast?.getD config.graphFlags) (Text.read content)
    let report := runConvert d name stdin verbose r
    (report.failure = some (.file .nullCharacter) ↔
      '\x00' ∈ config.outputSuffix.toList ∧ ∃ text, converted.result = .ok text) ∧
    ∀ failure, report.failure = some failure →
      (∃ fault, failure = .file fault) ∨ ∃ fault, failure = .document fault ∧ converted.result = .error fault := by
  intro converted report
  obtain ⟨stderr, hrun⟩ := runConvert_beside stdin verbose h hform hconfig hsuffix hpath
  cases hresult : converted.result with
  | ok text =>
    have hreport : report = deliver d stderr text (some path) := by
      show runConvert d name stdin verbose r = _
      rw [hrun, hresult]
    rw [hreport]
    refine ⟨(deliver_null h hconfig hpath).trans (and_iff_left ⟨text, rfl⟩).symm, fun failure hfailure => .inl ?_⟩
    obtain ⟨fault, -, hfault⟩ := deliver_failure.mp hfailure
    exact ⟨fault, hfault⟩
  | error fault =>
    have hreport : report = (Fault.ending fault).report d stderr := by
      show runConvert d name stdin verbose r = _
      rw [hrun, hresult]
    rw [hreport]
    refine ⟨iff_of_false (fun hnull => ?_) (fun hnull => ?_), fun failure hfailure =>
      .inr ⟨fault, ending_failure d stderr fault hfailure, rfl⟩⟩
    · exact absurd (ending_failure d stderr fault hnull) nofun
    · exact absurd hnull.2.choose_spec nofun

end

/-! ## A document and a configuration -/

/-- A document without items. -/
def bareDocument : String :=
  "\x7b\"version\":8,\"graph\":\x7b\"viewport\":\x7b\"xmin\":0,\"xmax\":1,\"ymin\":0,\"ymax\":1\x7d\x7d\x7d"

/-- A folder with this document and a configuration with this suffix. -/
def bareFolder (suffix : String) : Disk :=
  ⟨["a"], [(["a", "g.json"], bareDocument),
    (["a", ".desmos-text", "config.json"], (Config.mk false suffix).text)], []⟩

theorem bareDocument_converted :
    (convert .script false (Text.read bareDocument)).result = .ok "viewport: x [0:1], y [0:1]" :=
  toOption_eq_some.mp (by decide +kernel)

theorem bareFolder_beside (suffix : String) : Request.Beside (bareFolder suffix) ⟨[(.write, "")], ["g.json"]⟩
    "g.json" ["a", "g.json"] bareDocument where
  operands := rfl
  write := by decide +kernel
  output := by decide +kernel
  named := by decide
  resolve := by rfl
  file := rfl

theorem bareFolder_config {suffix : String} (h : IsDotted suffix) :
    Config.loadOrDefault (bareFolder suffix) "a" = .ok ⟨false, suffix⟩ :=
  Config.loadOrDefault_of_text rfl h "a"

theorem bareFolder_request : readInvocation ["convert", "g.json", "--write"] =
    some ⟨false, .convert ⟨[(.write, "")], ["g.json"]⟩⟩ := by
  decide +kernel

/-! ## All suffixes -/

/-- The place beside a document is the document itself exactly if the suffix of the configuration is the one that the
    document has. Under any other suffix the document stays as it is, and so it does if the suffix marks a script. In
    the one case that is left, the text takes the place of the document, whatever the document held, unless the
    conversion fails. -/
theorem other_suffixes_spare_the_document (d : Disk) (name : String) (stdin : Stdin) (arguments : List String)
    {verbose : Bool} {r : Request} {config : Config} {input content : String} {p : Path}
    (hr : readInvocation arguments = some ⟨verbose, .convert r⟩) (hbeside : r.Beside d input p content)
    (hconfig : Config.loadOrDefault d name = .ok config) :
    let after := (run d name stdin arguments).disk.node p
    (∀ path q, withSuffix? input config.outputSuffix = some path → d.resolve (tidy path) = .ok q →
      (q = p ↔ config.outputSuffix = suffix input)) ∧
    (config.outputSuffix ≠ suffix input ∨ config.outputSuffix = ".dest" → after = .file content) ∧
    (config.outputSuffix = suffix input → config.outputSuffix ≠ ".dest" → ∀ form, r.form? = some form →
      let converted := convert form (r.switches.getLast?.getD config.graphFlags) (Text.read content)
      (∀ text, converted.result = .ok text → after = .file (text ++ "\n")) ∧
        ∀ fault, converted.result = .error fault → after = .file content) := by
  intro after
  have hafter : after = (runConvert d name stdin verbose r).disk.node p := by
    show (run d name stdin arguments).disk.node p = _
    rw [run_convert d name stdin hr]
  rw [hafter]
  refine ⟨fun path q hpath hq => ?_, fun hspared => ?_, fun hown hsuffix form hform => ?_⟩
  · exact Disk.resolve_withSuffix hbeside.resolve hbeside.file (Config.loadOrDefault_dotted hconfig) hpath hq
  · by_cases hown : config.outputSuffix = suffix input
    · have hscript : suffix input = ".dest" := hown ▸ hspared.resolve_left fun hother => hother hown
      rw [runConvert_script hbeside hconfig hscript, hbeside.file]
    · exact runConvert_spares hbeside hconfig hown
  · exact runConvert_overwrites stdin verbose hbeside hform hconfig hown hsuffix

/-- A document beside which its script is written, and the same one with its script in its place. -/
theorem other_suffixes_spare_a_document :
    let after (suffix : String) :=
      (run (bareFolder suffix) "a" "" ["convert", "g.json", "--write"]).disk.node ["a", "g.json"]
    after ".txt" = .file bareDocument ∧ after ".json" = .file "viewport: x [0:1], y [0:1]\n" := by
  intro after
  have hother := other_suffixes_spare_the_document (bareFolder ".txt") "a" "" _ bareFolder_request
    (bareFolder_beside _) (bareFolder_config rfl)
  have hown := other_suffixes_spare_the_document (bareFolder ".json") "a" "" _ bareFolder_request
    (bareFolder_beside _) (bareFolder_config rfl)
  refine ⟨hother.2.1 (.inl (by decide +kernel)), ?_⟩
  exact (hown.2.2 (by decide +kernel) (by decide) .script (by decide +kernel)).1 _ bareDocument_converted

/-- A configuration is accepted whose suffix is that of a document, and writing beside the document replaces it. -/
theorem a_document_is_overwritten :
    let d := bareFolder ".json"
    let after := (run d "a" "" ["convert", "g.json", "--write"]).disk
    Config.load d "a" = .ok ⟨false, ".json"⟩ ∧ PathText.withSuffix? "g.json" ".json" = some "g.json" ∧
      d.node ["a", "g.json"] = .file bareDocument ∧
      after.node ["a", "g.json"] = .file "viewport: x [0:1], y [0:1]\n" ∧
      after.node ["a", "g.json"] ≠ d.node ["a", "g.json"] := by
  intro d after
  have hafter : after.node ["a", "g.json"] = .file "viewport: x [0:1], y [0:1]\n" := by
    have hrun := (runConvert_overwrites "" false (bareFolder_beside ".json") (by decide +kernel) (bareFolder_config rfl)
      (by decide +kernel) (by decide)).1 _ bareDocument_converted
    rwa [← run_convert _ _ "" bareFolder_request] at hrun
  have hload : Config.load d "a" = .ok ⟨false, ".json"⟩ := Config.load_of_text rfl (show IsDotted ".json" from rfl) "a"
  refine ⟨hload, by decide +kernel, rfl, hafter, ?_⟩
  rw [hafter, (bareFolder_beside ".json").file]
  decide +kernel

/-- An accepted suffix has no place beside a document exactly if it is a dot alone or has a slash; which document it
    is makes no difference. Then the run ends with that failure, tells nothing and leaves the disk alone. Under any
    other suffix the run fails for a null character exactly if the suffix has one and there is a text to write, and
    else only in what the file system says or in the document. -/
theorem suffixes_have_their_place (d : Disk) (name : String) (stdin : Stdin) (arguments : List String)
    {verbose : Bool} {r : Request} {form : Form} {config : Config} {input content : String} {p : Path}
    (hr : readInvocation arguments = some ⟨verbose, .convert r⟩) (hbeside : r.Beside d input p content)
    (hform : r.form? = some form) (hconfig : Config.loadOrDefault d name = .ok config)
    (hscript : suffix input ≠ ".dest") :
    let converted := convert form (r.switches.getLast?.getD config.graphFlags) (Text.read content)
    let report := run d name stdin arguments
    (withSuffix? input config.outputSuffix = none ↔
      config.outputSuffix = "." ∨ '/' ∈ config.outputSuffix.toList) ∧
    (config.outputSuffix = "." ∨ '/' ∈ config.outputSuffix.toList →
      report = ⟨1, "", "", d, some (.suffix config.outputSuffix)⟩) ∧
    (config.outputSuffix ≠ "." → '/' ∉ config.outputSuffix.toList →
      (report.failure = some (.file .nullCharacter) ↔
        '\x00' ∈ config.outputSuffix.toList ∧ ∃ text, converted.result = .ok text) ∧
      ∀ failure, report.failure = some failure →
        (∃ fault, failure = .file fault) ∨ ∃ fault, failure = .document fault ∧ converted.result = .error fault) := by
  intro converted report
  have hreport : report = runConvert d name stdin verbose r := run_convert d name stdin hr
  have hplace := withSuffix?_eq_none (Config.loadOrDefault_dotted hconfig) input
  rw [hreport]
  refine ⟨hplace, fun hnone => ?_, fun hdot hslash => ?_⟩
  · exact runConvert_placeless hbeside hform hconfig hscript (hplace.mpr hnone)
  · obtain ⟨path, hpath⟩ := Option.ne_none_iff_exists'.mp fun hnone => not_or.mpr ⟨hdot, hslash⟩ (hplace.mp hnone)
    exact runConvert_failures hbeside hform hconfig hscript hpath

/-- A suffix with a slash, one with a null character, and one that is only unusual. -/
theorem three_suffixes_have_their_place :
    run (bareFolder ".a/b") "a" "" ["convert", "g.json", "--write"] =
        ⟨1, "", "", bareFolder ".a/b", some (.suffix ".a/b")⟩ ∧
      (run (bareFolder ".\x00") "a" "" ["convert", "g.json", "--write"]).failure = some (.file .nullCharacter) ∧
      (run (bareFolder ". .") "a" "" ["convert", "g.json", "--write"]).failure ≠ some (.file .nullCharacter) := by
  have hform : Request.form? ⟨[(.write, "")], ["g.json"]⟩ = some .script := by decide +kernel
  have hscript : suffix "g.json" ≠ ".dest" := by decide +kernel
  have hslash := suffixes_have_their_place (bareFolder ".a/b") "a" "" _ bareFolder_request (bareFolder_beside _) hform
    (bareFolder_config rfl) hscript
  have hnull := suffixes_have_their_place (bareFolder ".\x00") "a" "" _ bareFolder_request (bareFolder_beside _) hform
    (bareFolder_config rfl) hscript
  have hblank := suffixes_have_their_place (bareFolder ". .") "a" "" _ bareFolder_request (bareFolder_beside _) hform
    (bareFolder_config rfl) hscript
  refine ⟨hslash.2.1 (by decide), ?_, fun hfailure => ?_⟩
  · exact (hnull.2.2 (by decide) (by decide)).1.mpr ⟨by decide, _, bareDocument_converted⟩
  · exact absurd ((hblank.2.2 (by decide) (by decide)).1.mp hfailure).1 (by decide)

/-- Two suffixes that are accepted, for a document that is there: the run ends in a failure that nobody tells of. -/
theorem an_accepted_suffix_fails :
    let fails (suffix : String) :=
      Config.load (bareFolder suffix) "a" = .ok ⟨false, suffix⟩ ∧ PathText.withSuffix? "g.json" suffix = none ∧
        run (bareFolder suffix) "a" "" ["convert", "g.json", "--write"] =
          ⟨1, "", "", bareFolder suffix, some (.suffix suffix)⟩
    fails "." ∧ fails ".a/b" := by
  intro fails
  have hfails (suffix : String) (hdotted : IsDotted suffix) (hnone : withSuffix? "g.json" suffix = none) :
      fails suffix := by
    have hform : Request.form? ⟨[(.write, "")], ["g.json"]⟩ = some .script := by decide +kernel
    have hscript : PathText.suffix "g.json" ≠ ".dest" := by decide +kernel
    refine ⟨Config.load_of_text rfl hdotted "a", hnone, ?_⟩
    rw [run_convert _ _ _ bareFolder_request]
    exact runConvert_placeless (bareFolder_beside suffix) hform (bareFolder_config hdotted) hscript hnone
  exact ⟨hfails "." rfl (by decide +kernel), hfails ".a/b" rfl (by decide +kernel)⟩

end CommandLine

end GraphScript
