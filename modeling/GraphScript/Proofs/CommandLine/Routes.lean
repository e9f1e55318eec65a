/-
  GraphScript.Proofs.CommandLine.Routes — every route through the program gives the same.

  A text comes from standard input or from a file, and what it is converted to is printed, or goes to
  a file that is named or beside the source. Between the two ends a route makes no difference: what
  the text is converted to, or the fault that it has, depends on the text, the form and one flag.
  The flag is the last that is given, or else that of the configuration.

  The routes part at both ends, though in little. A standard input that keeps its line ends can have
  the fault of a text at another place. A file holds what the text is converted to; what is printed has
  lost its control sequences, so only a text without any is delivered alike on all routes
  (`a_printed_note_loses_its_colour`). A dump never holds one.

  Half of a surrogate pair alone is no character. What holds one cannot be written anywhere, so a
  document with it has no route here (`Route.paired`).

  - `routes_agree`
-/
import GraphScript.Proofs.CommandLine.Runs
import GraphScript.Proofs.Disk.Naming
import GraphScript.Proofs.Json.LineEnds
import GraphScript.Proofs.Json.Pairs

namespace GraphScript.CommandLine

open Faults

/-! ## Routes -/

/-- What is said about graph flags, in the order in which it is given. -/
def Request.switches (r : Request) : List Bool :=
  r.given.filterMap fun
    | (.graphFlags, _) => some true
    | (.noGraphFlags, _) => some false
    | _ => none

/-- The text is what the operand names: standard input for a dash, or else the file, unless it is a script by its
    name. -/
def Supplies (d : Disk) (stdin : Stdin) (input t : String) : Prop :=
  if input = "-" then stdin.text = t else d.nodeNamed input = .ok (.file t) ∧ PathText.suffix input ≠ ".dest"

/-- What is handed on of a text: its line ends have become line feeds, except on a standard input that keeps them. -/
def handed (stdin : Stdin) (input t : String) : String :=
  if input = "-" ∧ stdin.translated = false then t else Text.read t

/-- A file that is named can be written: its folder is there, and it is none itself. -/
def Takes (d : Disk) : Option String → Prop
  | none => True
  | some path => ∃ p, d.resolve (PathText.tidy path) = .ok p ∧ d.node p ≠ .folder

/-- A way for a text through the program, from where it is read to where it goes. -/
structure Way (d : Disk) (stdin : Stdin) (r : Request) (input t suffix : String) (target : Option String) :
    Prop where
  operands : r.operands = [input]
  supplies : Supplies d stdin input t
  goesTo : r.GoesTo input suffix target
  /-- Beside standard input there is no place for a file. -/
  beside : input = "-" → r.output = none → r.write = false
  takes : Takes d target

/-- A text of which strings come into what is written: a document, or the configuration whose suffix names the file. -/
def Contributes (d : Disk) (stdin : Stdin) (r : Request) (input t text : String) : Prop :=
  (text = handed stdin input t ∧ ∃ state, Json.read text = .ok state) ∨
    (r.output = none ∧ r.write = true ∧ d.readPath (Config.path d) = .ok text)

/-- A way at whose end all can be written: no string that may come there has half of a surrogate pair alone. -/
structure Route (d : Disk) (stdin : Stdin) (r : Request) (input t suffix : String) (target : Option String) : Prop
    extends Way d stdin r input t suffix target where
  paired (text : String) : Contributes d stdin r input t text → Json.IsPaired text

/-- The same outcome, or a text that is refused for one reason at two places. -/
def SameButPlace (x y : Outcome String) : Prop :=
  x = y ∨ ∃ reason p q, x = ⟨[], .error (.unreadable (.malformed reason p))⟩ ∧
    y = ⟨[], .error (.unreadable (.malformed reason q))⟩

/-- What has become of a text: what it is converted to is delivered, or its fault is told and that is all. -/
structure Answers (d : Disk) (verbose : Bool) (target : Option String) (converted : Outcome String) (report : Report) :
    Prop where
  delivered (text : String) : converted.result = .ok text →
    report.exit = 0 ∧ report.failure = none ∧ Delivered d text report target
  told (fault : Fault) : converted.result = .error fault →
    report.exit = 1 ∧ report = (Fault.ending fault).report d (if verbose then logged converted.log else "")

section

variable {d : Disk} {name stderr input t suffix text : String} {stdin : Stdin} {verbose : Bool} {r : Request}
  {form : Form} {config : Config} {target : Option String}

/-- The last switch counts. -/
theorem graphFlags_eq (r : Request) : r.graphFlags = r.switches.getLast? := by
  rw [← List.head?_reverse, Request.switches, ← List.filterMap_reverse]
  exact List.head?_filterMap.symm

/-! ## The request -/

theorem checkInput_of_supplies (h : Supplies d stdin input t) : checkInput d input = .ok () := by
  unfold Supplies at h
  unfold checkInput
  split
  · rfl
  · rename_i hi
    rw [if_neg hi] at h
    rw [h.1]

theorem checkOutput_of_takes {path : String} (h : Takes d (some path)) : checkOutput d path = .ok () := by
  obtain ⟨p, hp, hnode⟩ := h
  obtain ⟨hfolder, hnull⟩ := Disk.nodeNamed_of_resolve_tidy hp hnode
  unfold checkOutput
  split
  · rename_i he
    exact absurd he hfolder
  · rename_i he
    exact absurd he hnull
  · rfl

theorem checkOutput_of_way (hway : Way d stdin r input t suffix target) : checkOption d r .output = .ok () := by
  unfold checkOption
  cases ho : r.output with
  | none => rfl
  | some path =>
    have hgoes := hway.goesTo
    have htarget : target = some path := by
      cases target with
      | none => exact absurd (ho.symm.trans hgoes.1) nofun
      | some other =>
        rcases hgoes with hother | hbeside
        · exact hother.symm.trans ho
        · exact absurd (ho.symm.trans hbeside.1) nofun
    exact checkOutput_of_takes (htarget ▸ hway.takes)

/-- The input, the output and the format are all that is checked of a request. -/
theorem conversion_of_checks (hoperands : r.operands = [input]) (hinput : checkInput d input = .ok ())
    (houtput : checkOption d r .output = .ok ()) (hform : r.form? = some form) :
    conversion d r = .ok ⟨input, r.output, r.write, form, r.graphFlags⟩ := by
  have hchecks (option : Switch) : checkOption d r option = .ok () := by
    cases option with
    | output => exact houtput
    | format =>
      unfold checkOption
      rw [hform]
      rfl
    | _ => rfl
  unfold conversion
  refine bind_eq_ok.mpr ⟨(), forM_of_forall fun g _ => hchecks g.1, ?_⟩
  rw [hoperands]
  dsimp only [List.head?_cons]
  rw [hinput, ok_bind, hform]
  rfl

theorem conversion_of_way (hway : Way d stdin r input t suffix target) (hform : r.form? = some form) :
    conversion d r = .ok ⟨input, r.output, r.write, form, r.graphFlags⟩ :=
  conversion_of_checks hway.operands (checkInput_of_supplies hway.supplies) (checkOutput_of_way hway) hform

/-! ## Both ends -/

theorem handed_of_translated (h : input ≠ "-" ∨ stdin.translated = true) : handed stdin input t = Text.read t :=
  if_neg fun hkept => h.elim (absurd hkept.1) fun htranslated => Bool.noConfusion (hkept.2.symm.trans htranslated)

theorem source_of_supplies {c : Conversion} (h : Supplies d stdin c.input t) :
    source d stdin c = .ok (handed stdin c.input t) := by
  unfold Supplies at h
  unfold source
  split
  · rename_i hi
    rw [if_pos hi] at h
    subst h
    unfold Stdin.read
    split
    · rename_i htranslated
      rw [handed_of_translated (.inr htranslated)]
    · rename_i hkept
      rw [handed, if_pos ⟨hi, Bool.eq_false_iff.mpr hkept⟩]
  · rename_i hi
    rw [if_neg hi] at h
    rw [if_neg h.2, Disk.read_of_nodeNamed h.1, handed_of_translated (.inl hi)]
    rfl

theorem target_of_goesTo (h : r.GoesTo input suffix target)
    (hbeside : input = "-" → r.output = none → r.write = false) :
    CommandLine.target ⟨input, r.output, r.write, form, r.graphFlags⟩ suffix = .ok target := by
  cases target with
  | none => rw [CommandLine.target, h.1, h.2]
  | some path =>
    rcases h with hout | ⟨hout, hwrite, hpath⟩
    · rw [CommandLine.target, hout]
    · have hi : input ≠ "-" := by
        intro hi
        rw [hbeside hi hout] at hwrite
        cases hwrite
      unfold CommandLine.target
      rw [hout, hwrite]
      split
      · contradiction
      · contradiction
      · rename_i hinput
        exact absurd hinput hi
      · dsimp only
        rw [hpath]

theorem deliver_of_takes (h : Takes d target) : (deliver d stderr text target).exit = 0 ∧
    (deliver d stderr text target).failure = none := by
  cases target with
  | none => exact ⟨rfl, rfl⟩
  | some path =>
    obtain ⟨p, hp, hnode⟩ := h
    have hwrite : ∃ written, d.write path (text ++ "\n") = .ok written := by
      refine ⟨_, bind_eq_ok.mpr ⟨p, hp, Disk.writePath_eq_ok.mpr ⟨hnode, rfl⟩⟩⟩
    obtain ⟨written, hwrite⟩ := hwrite
    unfold deliver
    dsimp only
    rw [hwrite]
    exact ⟨rfl, rfl⟩

theorem fault_exit (d : Disk) (stderr : String) (fault : Fault) :
    ((Fault.ending fault).report d stderr).exit = 1 := by
  unfold Fault.ending
  split <;> rfl

/-! ## The whole way -/

theorem prepare_of_way (hconfig : Config.loadOrDefault d name = .ok config)
    (hway : Way d stdin r input t config.outputSuffix target) :
    prepare d name stdin ⟨input, r.output, r.write, form, r.graphFlags⟩ =
      .ok (handed stdin input t, r.switches.getLast?.getD config.graphFlags, target) := by
  rw [prepare_ok hconfig (source_of_supplies hway.supplies) (target_of_goesTo hway.goesTo hway.beside),
    graphFlags_eq]

theorem runConvert_answers (hform : r.form? = some form) (hconfig : Config.loadOrDefault d name = .ok config)
    (hway : Way d stdin r input t config.outputSuffix target) :
    Answers d verbose target (convert form (r.switches.getLast?.getD config.graphFlags) (handed stdin input t))
      (runConvert d name stdin verbose r) := by
  unfold runConvert
  rw [conversion_of_way hway hform]
  dsimp only
  unfold runConversion
  rw [prepare_of_way hconfig hway]
  dsimp only
  constructor
  · intro text htext
    rw [htext]
    dsimp only
    obtain ⟨hexit, hfailure⟩ := deliver_of_takes hway.takes
    exact ⟨hexit, hfailure, deliver_delivers hexit⟩
  · intro fault hfault
    rw [hfault]
    exact ⟨fault_exit _ _ _, rfl⟩

theorem convert_malformed {graphFlags : Bool} {content : String} {reason : Json.Reason} {p : Json.Place}
    (h : Json.read content = .error (.malformed reason p)) :
    convert form graphFlags content = ⟨[], .error (.unreadable (.malformed reason p))⟩ := by
  rw [convert, translateText, h]
  rfl

theorem convert_congr {graphFlags : Bool} {content content' : String} (h : Json.read content = Json.read content') :
    convert form graphFlags content = convert form graphFlags content' := by
  rw [convert, convert, translateText, translateText, h]

/-- A text that is converted at all is converted alike. -/
theorem SameButPlace.eq_of_ok {x y : Outcome String} (h : SameButPlace x y) (hx : x.result = .ok text) : y = x := by
  obtain rfl | ⟨reason, p, q, rfl, -⟩ := h
  · rfl
  · cases hx

/-- Line ends that are kept count for the place of a fault alone. -/
theorem convert_handed (form : Form) (graphFlags : Bool) (stdin : Stdin) (input t : String) :
    SameButPlace (convert form graphFlags (Text.read t)) (convert form graphFlags (handed stdin input t)) := by
  unfold handed
  split
  · obtain hsame | ⟨reason, p, q, hp, hq⟩ := Json.read_lineFeeds t
    · exact .inl (convert_congr hsame)
    · exact .inr ⟨reason, q, p, convert_malformed hq, convert_malformed hp⟩
  · exact .inl rfl

/-- A dump is plain, so nothing of it is lost where it is printed. -/
theorem escape_not_mem_dump {graphFlags : Bool} {content : String}
    (h : (convert .dump graphFlags content).result = .ok text) : '\x1b' ∉ text.toList := by
  obtain ⟨p, -, hp⟩ := bind_eq_ok.mp h
  obtain rfl := Except.ok.inj hp
  exact fun hmem => absurd (Json.write_legible (some 2) _ _ hmem) (by decide)

end

/-! ## Asking for a route -/

/-- An option that a conversion can be asked for with. -/
inductive Asked where
  | output (path : String)
  | write
  | format (name : String)
  | graphFlags (shown : Bool)

namespace Asked

def given : Asked → Given
  | .output path => (.output, path)
  | .write => (.write, "")
  | .format name => (.format, name)
  | .graphFlags true => (.graphFlags, "")
  | .graphFlags false => (.noGraphFlags, "")

def arguments : Asked → List String
  | .output path => ["--output", path]
  | .write => ["--write"]
  | .format name => ["--format", name]
  | .graphFlags true => ["--graph-flags"]
  | .graphFlags false => ["--no-graph-flags"]

def shown? : Asked → Option Bool
  | .graphFlags shown => some shown
  | _ => none

end Asked

/-- A word that is no option: a dash alone, or one that starts with something else. -/
def IsOperand (word : String) : Prop := word = "-" ∨ word.toList.head? ≠ some '-'

section

variable {o : Options} {word value : String} {found given : List Given} {s : Switch} {rest operands : List String}

theorem readArgument_operand (h : IsOperand word) : o.readArgument word = .operand := by
  unfold Options.readArgument
  rcases h with rfl | h
  · rfl
  · have hdash : ∀ cs, word.toList ≠ '-' :: cs := by
      intro cs hw
      rw [hw] at h
      exact h rfl
    split
    · exact absurd ‹_› (hdash _)
    · exact absurd ‹_› (hdash _)
    · exact absurd ‹_› (hdash _)
    · rfl

theorem read_options (h : o.readArgument word = .options found) (hrest : o.read rest = some (given, operands)) :
    o.read (word :: rest) = some (found ++ given, operands) := by
  rw [Options.read, h]
  dsimp only
  rw [hrest]
  rfl

theorem read_awaiting (h : o.readArgument word = .awaiting found s) (hrest : o.read rest = some (given, operands)) :
    o.read (word :: value :: rest) = some (found ++ (s, value) :: given, operands) := by
  rw [Options.read, h]
  dsimp only
  rw [hrest]
  rfl

/-- One option more in front is one that is given first. -/
theorem read_asked_cons (a : Asked) (h : convertOptions.read rest = some (given, operands)) :
    convertOptions.read (a.arguments ++ rest) = some (a.given :: given, operands) := by
  have houtput : convertOptions.readArgument "--output" = .awaiting [] .output := rfl
  have hformat : convertOptions.readArgument "--format" = .awaiting [] .format := rfl
  have hwrite : convertOptions.readArgument "--write" = .options [(.write, "")] := rfl
  have hshown : convertOptions.readArgument "--graph-flags" = .options [(.graphFlags, "")] := rfl
  have hhidden : convertOptions.readArgument "--no-graph-flags" = .options [(.noGraphFlags, "")] := rfl
  cases a with
  | output path => exact read_awaiting houtput h
  | format name => exact read_awaiting hformat h
  | write => exact read_options hwrite h
  | graphFlags shown =>
    cases shown with
    | true => exact read_options hshown h
    | false => exact read_options hhidden h

end

theorem read_asked {input : String} (h : IsOperand input) (asked : List Asked) :
    convertOptions.read (asked.flatMap Asked.arguments ++ [input]) = some (asked.map Asked.given, [input]) := by
  induction asked with
  | nil =>
    rw [List.flatMap_nil, List.nil_append, Options.read, readArgument_operand h]
    rfl
  | cons a asked ih =>
    rw [List.flatMap_cons, List.append_assoc]
    exact read_asked_cons a ih

theorem readInvocation_asked {input : String} (h : IsOperand input) (asked : List Asked) :
    readInvocation ("convert" :: (asked.flatMap Asked.arguments ++ [input])) =
      some ⟨false, .convert ⟨asked.map Asked.given, [input]⟩⟩ := by
  have hhelp : has (asked.map Asked.given) .help = false := by
    rw [has, List.any_map, List.any_eq_false]
    intro a _
    cases a with
    | graphFlags shown => cases shown <;> decide
    | _ => exact nofun
  have hgroup : groupOptions.read ("convert" :: (asked.flatMap Asked.arguments ++ [input])) =
      some ([], "convert" :: (asked.flatMap Asked.arguments ++ [input])) := by
    rw [Options.read, readArgument_operand (.inr (by decide))]
    rfl
  have hconvert : readConvert (asked.flatMap Asked.arguments ++ [input]) =
      some (.convert ⟨asked.map Asked.given, [input]⟩) := by
    rw [readConvert, read_asked h]
    show some (if has (asked.map Asked.given) .help then _ else _) = _
    rw [hhelp]
    rfl
  rw [readInvocation, if_neg (by simp), hgroup]
  show (readConvert _).bind (fun command => some (Invocation.mk false command)) = _
  rw [hconvert]
  rfl

theorem switches_asked (asked : List Asked) (operands : List String) :
    Request.switches ⟨asked.map Asked.given, operands⟩ = asked.filterMap Asked.shown? := by
  rw [Request.switches, List.filterMap_map]
  refine List.filterMap_congr fun a _ => ?_
  cases a with
  | graphFlags shown => cases shown <;> rfl
  | _ => rfl

/-- A conversion ends as its text, the form and one flag say: the last flag that is given, or else that of the
    configuration, which is off where there is none. What the text is converted to, line ends being line feeds, is
    delivered wherever the route leads, or the fault of the text is told; a standard input that keeps its line ends
    can only make for another place of the fault. What is delivered is the whole text, except for control sequences
    where a script is printed, and each string that it comes from is read as it is written. Any options can be asked
    for, in any number and order. -/
theorem routes_agree (d : Disk) (name : String) (stdin : Stdin) (arguments : List String) {verbose : Bool} {r : Request}
    {form : Form} {config : Config} {input t : String} {target : Option String}
    (hr : readInvocation arguments = some ⟨verbose, .convert r⟩) (hform : r.form? = some form)
    (hconfig : Config.loadOrDefault d name = .ok config)
    (hroute : Route d stdin r input t config.outputSuffix target) :
    let flag := r.switches.getLast?.getD config.graphFlags
    let converted := convert form flag (Text.read t)
    let given := convert form flag (handed stdin input t)
    let report := run d name stdin arguments
    Answers d verbose target given report ∧
      (input ≠ "-" ∨ stdin.translated = true → given = converted) ∧
      SameButPlace converted given ∧
      (∀ text, Contributes d stdin r input t text → Json.AsWritten text) ∧
      (form = .dump → ∀ text, converted.result = .ok text → target = none → report.stdout = text ++ "\n") ∧
      (d.node (Config.path d) = .missing → config.graphFlags = false) ∧
      ∀ (asked : List Asked) (operand : String), IsOperand operand →
        readInvocation ("convert" :: (asked.flatMap Asked.arguments ++ [operand])) =
          some ⟨false, .convert ⟨asked.map Asked.given, [operand]⟩⟩ ∧
        Request.switches ⟨asked.map Asked.given, [operand]⟩ = asked.filterMap Asked.shown? := by
  intro flag converted given report
  have hrun : report = runConvert d name stdin verbose r := by
    show run d name stdin arguments = _
    rw [run, hr]
  have hanswers : Answers d verbose target given report := hrun ▸ runConvert_answers hform hconfig hroute.toWay
  have hsame : SameButPlace converted given := convert_handed form flag stdin input t
  refine ⟨hanswers, fun htranslated => ?_, hsame, fun text htext => ?_, fun hdump text htext htarget => ?_,
    fun hmissing => ?_, fun asked operand hoperand => ?_⟩
  · show convert form flag (handed stdin input t) = _
    rw [handed_of_translated htranslated]
  · exact (Json.isPaired_iff text).mp (hroute.paired text htext)
  · subst hdump htarget
    have hgiven : given.result = .ok text := by
      rw [hsame.eq_of_ok htext, htext]
    exact (hanswers.delivered text hgiven).2.2.2.2 (escape_not_mem_dump hgiven)
  · have hno : ¬ Config.isInitialized d = true := fun h => Config.isInitialized_iff.mp h hmissing
    rw [Config.loadOrDefault, if_neg hno] at hconfig
    rw [← Except.ok.inj hconfig]
  · exact ⟨readInvocation_asked hoperand asked, switches_asked asked [operand]⟩

/-- A document with carriage returns and a surrogate pair, under a configuration that asks for graph flags and command
    lines that take them back: what comes from a file and goes beside it is what comes from standard input and is
    printed, whether that keeps its line ends or not. -/
theorem routes_agree_from_a_file_and_standard_input :
    let document := "\x7b\"version\":8,\r\n\"graph\":\x7b\"squareAxes\":true,\r" ++
      "\"viewport\":\x7b\"xmin\":0,\"xmax\":1,\"ymin\":0,\"ymax\":1\x7d\x7d,\"randomSeed\":\"\\ud83d\\ude00\"\x7d"
    let config : Config := ⟨true, ".txt"⟩
    let d : Disk := ⟨["a"], [(["a", "g.json"], document), (["a", ".desmos-text", "config.json"], config.text)], []⟩
    let converted := convert .script false (Text.read document)
    let printing := ["convert", "--graph-flags", "-", "--no-graph-flags", "--format=dest"]
    converted.result = .ok "seed: \"😀\"\nviewport: x [0:1], y [0:1]" ∧
      Answers d false (some "g.txt") converted
        (run d "a" "" ["convert", "--graph-flags", "--no-graph-flags", "g.json", "-w"]) ∧
      Answers d false none converted (run d "a" document printing) ∧
      Answers d false none converted (run d "a" ⟨document, false⟩ printing) := by
  intro document config d converted printing
  have hconfig : Config.loadOrDefault d "a" = .ok config :=
    Config.loadOrDefault_of_text rfl (show PathText.IsDotted ".txt" from rfl) "a"
  have hconverted : converted.result = .ok "seed: \"😀\"\nviewport: x [0:1], y [0:1]" :=
    toOption_eq_some.mp (by decide +kernel)
  have hdocument : Json.IsPaired document ∧ Json.IsPaired (Text.read document) := by decide +kernel
  have hconfigured : Json.IsPaired (Text.read config.text) := by decide +kernel
  have hpaired (stdin : Stdin) (r : Request) (input text : String)
      (h : Contributes d stdin r input document text) : Json.IsPaired text := by
    rcases h with ⟨rfl, -⟩ | ⟨-, -, hread⟩
    · unfold handed
      split
      · exact hdocument.1
      · exact hdocument.2
    · obtain rfl := Except.ok.inj hread
      exact hconfigured
  let file : Request := ⟨[(.graphFlags, ""), (.noGraphFlags, ""), (.write, "")], ["g.json"]⟩
  let piped : Request := ⟨[(.graphFlags, ""), (.noGraphFlags, ""), (.format, "dest")], ["-"]⟩
  have hfile : Route d "" file "g.json" document config.outputSuffix (some "g.txt") := {
    operands := rfl
    supplies := by rw [Supplies, if_neg (by decide)]; decide +kernel
    goesTo := .inr (by decide +kernel)
    beside := nofun
    takes := ⟨["a", "g.txt"], by decide +kernel, by decide +kernel⟩
    paired := hpaired _ _ _ }
  have hpiped (translated : Bool) : Route d ⟨document, translated⟩ piped "-" document config.outputSuffix none := {
    operands := rfl
    supplies := by rw [Supplies, if_pos rfl]
    goesTo := ⟨by decide +kernel, by decide +kernel⟩
    beside := fun _ _ => by decide +kernel
    takes := trivial
    paired := hpaired _ _ _ }
  have hform : file.form? = some .script ∧ piped.form? = some .script := by decide +kernel
  have hfileRead : readInvocation ["convert", "--graph-flags", "--no-graph-flags", "g.json", "-w"] =
      some ⟨false, .convert file⟩ := by decide +kernel
  have hpipedRead : readInvocation printing = some ⟨false, .convert piped⟩ := by decide +kernel
  have htranslated := routes_agree d "a" document _ hpipedRead hform.2 hconfig (hpiped true)
  have hkept := routes_agree d "a" ⟨document, false⟩ _ hpipedRead hform.2 hconfig (hpiped false)
  refine ⟨hconverted, (routes_agree d "a" "" _ hfileRead hform.1 hconfig hfile).1, htranslated.1, ?_⟩
  have hgiven : convert .script false (handed ⟨document, false⟩ "-" document) = converted :=
    hkept.2.2.1.eq_of_ok hconverted
  have hanswers : Answers d false none (convert .script false (handed ⟨document, false⟩ "-" document))
      (run d "a" ⟨document, false⟩ printing) := hkept.1
  rwa [hgiven] at hanswers

/-- A note can hold a sequence that makes a terminal write in red. The script that is printed has lost it; the one
    that is written beside the document has it. -/
theorem a_printed_note_loses_its_colour :
    let document := "\x7b\"version\":8,\"graph\":\x7b\"viewport\":\x7b\"xmin\":0,\"xmax\":1,\"ymin\":0,\"ymax\":1" ++
      "\x7d\x7d,\"expressions\":\x7b\"list\":[\x7b\"type\":\"text\",\"id\":\"1\",\"text\":\"\\u001b[31mred\"\x7d]\x7d\x7d"
    let d : Disk := ⟨["a"], [(["a", "g.json"], document)], []⟩
    let text := "viewport: x [0:1], y [0:1]\nnote \"\x1b[31mred\" id: \"1\";"
    (run d "a" document ["convert", "-"]).stdout = "viewport: x [0:1], y [0:1]\nnote \"red\" id: \"1\";\n" ∧
      (run d "a" "" ["convert", "g.json", "-w"]).disk.node ["a", "g.dest"] = .file (text ++ "\n") ∧
      (run d "a" document ["convert", "-"]).stdout ≠ text ++ "\n" := by
  intro document d text
  have hprinted : (run d "a" document ["convert", "-"]).stdout =
      "viewport: x [0:1], y [0:1]\nnote \"red\" id: \"1\";\n" := by decide +kernel
  refine ⟨hprinted, by decide +kernel, ?_⟩
  rw [hprinted]
  decide +kernel

end GraphScript.CommandLine
