/-
  GraphScript.Proofs.CommandLine.Refusals — texts that cannot be read are refused, long integers excepted.

  A configuration is loaded, or refused with a message; a document that cannot be read is told on
  standard error, and nothing else happens. The one exception is a whole number of more digits than
  can be read, in either of them: nobody tells of it, and the failure is left to the caller
  (`a_long_integer_escapes`). It takes that many digits in a row in the text.

  - `unreadable_texts_are_refused`
-/
import GraphScript.Proofs.CommandLine.Runs
import GraphScript.Proofs.Json.Stops

namespace GraphScript

open Faults

/-! ## Messages -/

namespace Json

theorem Reason.message_legible (reason : Reason) : Text.Legible reason.message.toList := by
  cases reason <;> decide +kernel

theorem ReadError.message_legible (e : ReadError) : Text.Legible e.message.toList := by
  have hnat (n : Nat) : Text.Legible (toString n).toList := Text.legible_of_numeric (numeric_nat n)
  cases e with
  | malformed reason place =>
    delta ReadError.message
    simp only [String.toList_append, Text.legible_append, reason.message_legible, hnat, true_and, and_true]
    decide
  | longInteger digits =>
    delta ReadError.message
    simp only [String.toList_append, Text.legible_append, hnat, and_true]
    decide +kernel

/-- A number of more digits than can be read, alone in a text. -/
theorem read_long {ds : List Char} (hw : IsWhole ds) (hl : digitLimit < ds.length) :
    read (String.ofList ds) = .error (.longInteger ds.length) := by
  have hlong := unsigned?_long false hw hl (opens_nil _)
  rw [List.append_nil] at hlong
  obtain ⟨c, rest, hds, hc⟩ := unsigned?_opens false hlong
  obtain ⟨hblank, -, hmark⟩ := not_blank_of_opensValue (c := c) (by simp [opensValue, isNumberChar_of_isDigit hc])
  have hskip : skipBlanks ds = ds := hds ▸ skipBlanks_append (List.forall_mem_nil _) hblank
  have hdocument : document ds = .error (.longInteger ds.length) := by
    rw [document, hskip]
    · exact congrArg (· >>= _) (value_signed hlong _)
    · intro _ h
      exact hmark (List.cons.inj (hds.symm.trans h)).1
  rw [read, String.toList_ofList, hdocument]
  rfl

end Json

/-! ## Configurations -/

namespace Config

/-- A suffix that is accepted starts with a dot. -/
theorem ofFields_dotted {fields : Json.Fields} {c : Config} (h : ofFields fields = .ok c) :
    c.outputSuffix.toList.head? = some '.' := by
  unfold ofFields at h
  split at h
  · split at h
    · rename_i hdot
      cases h
      exact hdot
    · cases h
  · cases h
  · cases h

/-- What comes of a text: a configuration with a dotted suffix or a refusal, unless an integer is too long. -/
theorem ofText_cases (file text : String) :
    (∃ c, ofText file text = .ok c ∧ c.outputSuffix.toList.head? = some '.') ∨
    (∃ fault, ofText file text = .error (.refused fault)) ∨
    ∃ n, ofText file text = .error (.longInteger n) ∧ Json.read text = .error (.longInteger n) := by
  unfold ofText
  cases hr : Json.read text with
  | error e =>
    cases e with
    | malformed reason place => exact .inr (.inl ⟨_, rfl⟩)
    | longInteger n => exact .inr (.inr ⟨n, rfl, rfl⟩)
  | ok j =>
    cases j with
    | obj fields =>
      cases hf : ofFields fields with
      | ok c => exact .inl ⟨c, by simp [hf, Except.mapError], ofFields_dotted hf⟩
      | error fault => exact .inr (.inl ⟨fault, by simp [hf, Except.mapError]⟩)
    | _ => exact .inr (.inl ⟨_, rfl⟩)

theorem ofText_malformed {text : String} {reason : Json.Reason} {place : Json.Place}
    (h : Json.read text = .error (.malformed reason place)) (file : String) :
    ofText file text = .error (.refused (.notJson file (.malformed reason place))) := by
  rw [ofText, h]

theorem ofText_longInteger {text : String} {n : Nat} (h : Json.read text = .error (.longInteger n)) (file : String) :
    ofText file text = .error (.longInteger n) := by
  rw [ofText, h]

/-- A folder without a configuration has the standard one. -/
theorem loadOrDefault_missing {d : Disk} (h : d.node (path d) = .missing) (name : String) :
    loadOrDefault d name = .ok {} := if_neg fun hthere => isInitialized_iff.mp hthere h

end Config

/-! ## Conversions -/

namespace CommandLine

section

variable {d : Disk} {name content : String} {stdin : Stdin} {arguments : List String}

/-- The run converts, its configuration is accepted or absent, there is a place for the text to go, and this is the
    text that it is to read. -/
def ComesTo (d : Disk) (name : String) (stdin : Stdin) (arguments : List String) (content : String) : Prop :=
  ∃ verbose r c config target, readInvocation arguments = some ⟨verbose, .convert r⟩ ∧ conversion d r = .ok c ∧
    Config.loadOrDefault d name = .ok config ∧ source d stdin c = .ok content ∧
    CommandLine.target c config.outputSuffix = .ok target

/-- Where the text is standard input and the result is printed, only the configuration is in question. -/
theorem comesTo_dash {config : Config} (h : Config.loadOrDefault d name = .ok config) (stdin : Stdin) :
    ComesTo d name stdin ["convert", "-"] stdin.read := by
  have hr : readInvocation ["convert", "-"] = some ⟨false, .convert ⟨[], ["-"]⟩⟩ := by decide
  exact ⟨_, _, ⟨"-", none, false, .script, none⟩, config, none, hr, rfl, h, rfl, rfl⟩

/-- The run ends with the failure to read the text, before anything is logged. -/
theorem run_unreadable (h : ComesTo d name stdin arguments content) {e : Json.ReadError}
    (he : Json.read content = .error e) :
    run d name stdin arguments = (Fault.ending (.unreadable e)).report d "" := by
  obtain ⟨verbose, r, c, config, target, hr, hc, hconfig, hsource, htarget⟩ := h
  have hconvert (form : Form) (graphFlags : Bool) : convert form graphFlags content = ⟨[], .error (.unreadable e)⟩ := by
    rw [convert, translateText, he]
    rfl
  rw [run, hr]
  dsimp only
  rw [runConvert, hc]
  dsimp only
  rw [runConversion, prepare_ok hconfig hsource htarget]
  dsimp only
  rw [hconvert]
  cases verbose <;> rfl

theorem line_unreadable (e : Json.ReadError) :
    line ("Error: " ++ ("Invalid JSON: " ++ e.message)) = "Error: Invalid JSON: " ++ e.message ++ "\n" := by
  have hlegible : Text.Legible ("Error: Invalid JSON: " ++ e.message ++ "\n").toList := by
    simp only [String.toList_append, Text.legible_append, e.message_legible, and_true]
    decide
  rw [line, ← String.append_assoc]
  exact Text.plain_of_not_mem fun hmem => absurd (hlegible _ hmem) (by decide)

end

/-! ## All texts -/

/-- Whatever text the configuration file holds, it is loaded, and its suffix starts with a dot, or refused, as no JSON
    where it cannot be read. A conversion whose text cannot be read tells so on standard error, ends with 1, and does
    nothing else. Both hold unless a whole number of too many digits is met, which takes as many digits in a row in the
    text: then the failure is left to the caller, and a conversion tells nothing. -/
theorem unreadable_texts_are_refused (d : Disk) (name : String) :
    (∀ text, d.node (Config.path d) = .file text →
      ((∃ c, Config.load d name = .ok c ∧ c.outputSuffix.toList.head? = some '.') ∨
        (∃ fault, Config.load d name = .error (.refused fault)) ∨
        ∃ n, Config.load d name = .error (.longInteger n) ∧ Json.HasLongRun (Text.read text).toList n) ∧
      (∀ reason place, Json.read (Text.read text) = .error (.malformed reason place) → Config.load d name =
        .error (.refused (.notJson (Config.place name) (.malformed reason place)))) ∧
      ∀ n, Json.read (Text.read text) = .error (.longInteger n) ↔ Config.load d name = .error (.longInteger n)) ∧
    ∀ stdin arguments content, ComesTo d name stdin arguments content →
      (∀ reason place, Json.read content = .error (.malformed reason place) → run d name stdin arguments =
        ⟨1, "", "Error: Invalid JSON: " ++ (Json.ReadError.malformed reason place).message ++ "\n", d, none⟩) ∧
      ∀ n, Json.read content = .error (.longInteger n) → Json.HasLongRun content.toList n ∧
        run d name stdin arguments = ⟨1, "", "", d, some (.document (.unreadable (.longInteger n)))⟩ := by
  refine ⟨fun text hnode => ?_, fun stdin arguments content hcontent => ⟨fun reason place he => ?_, fun n he => ?_⟩⟩
  · rw [Config.load_of_node hnode]
    refine ⟨?_, fun reason place he => Config.ofText_malformed he _, fun n => ⟨fun he =>
      Config.ofText_longInteger he _, fun he => ?_⟩⟩
    · obtain hok | hrefused | ⟨n, he, hread⟩ := Config.ofText_cases (Config.place name) (Text.read text)
      · exact .inl hok
      · exact .inr (.inl hrefused)
      · exact .inr (.inr ⟨n, he, Json.read_longInteger hread⟩)
    · obtain ⟨c, hok, -⟩ | ⟨fault, hrefused⟩ | ⟨m, hm, hread⟩ :=
        Config.ofText_cases (Config.place name) (Text.read text)
      · exact absurd (he.symm.trans hok) nofun
      · exact absurd (he.symm.trans hrefused) nofun
      · cases he.symm.trans hm
        exact hread
  · rw [run_unreadable hcontent he, ← line_unreadable]
    exact congrArg (Report.mk 1 "" · d none) String.empty_append
  · exact ⟨Json.read_longInteger he, run_unreadable hcontent he⟩

/-- A list that is not closed, as a configuration and as a document. -/
theorem unclosed_texts_are_refused :
    let d : Disk := ⟨["a"], [(["a", ".desmos-text", "config.json"], "[")], []⟩
    let empty : Disk := ⟨["a"], [], []⟩
    Config.load d "a" =
        .error (.refused (.notJson "a/.desmos-text/config.json" (.malformed .value ⟨1, 1, 2⟩))) ∧
      run empty "a" "[1,\n" ["convert", "-"] =
        ⟨1, "", "Error: Invalid JSON: Expecting value: line 2 column 1 (char 4)\n", empty, none⟩ := by
  intro d empty
  have hempty : Config.loadOrDefault empty "a" = .ok {} := Config.loadOrDefault_missing (by decide) "a"
  constructor
  · exact ((unreadable_texts_are_refused d "a").1 "[" (by decide)).2.1 .value ⟨1, 1, 2⟩ (by decide +kernel)
  · refine (((unreadable_texts_are_refused empty "a").2 "[1,\n" ["convert", "-"] _ (comesTo_dash hempty _)).1
      .value ⟨4, 2, 1⟩ (by decide +kernel)).trans ?_
    exact congrArg (Report.mk 1 "" · empty none) (by decide +kernel)

/-- A text of one digit more than can be read: as a configuration it is neither loaded nor refused, and a conversion of
    it ends without a message. -/
theorem a_long_integer_escapes :
    let text := String.ofList (List.replicate (Json.digitLimit + 1) '1')
    let d : Disk := ⟨["a"], [(["a", ".desmos-text", "config.json"], text)], []⟩
    let empty : Disk := ⟨["a"], [], []⟩
    ((∀ c, Config.load d "a" ≠ .ok c) ∧ ∀ fault, Config.load d "a" ≠ .error (.refused fault)) ∧
      ComesTo empty "a" text ["convert", "-"] text ∧ (∀ j, Json.read text ≠ .ok j) ∧
      (run empty "a" text ["convert", "-"]).stderr = "" ∧ (run empty "a" text ["convert", "-"]).failure ≠ none := by
  intro text d empty
  have hdigits : ∀ c ∈ List.replicate (Json.digitLimit + 1) '1', c = '1' := fun c hc => List.eq_of_mem_replicate hc
  have hwhole : IsWhole (List.replicate (Json.digitLimit + 1) '1') := by
    refine .inr ⟨fun c hc => hdigits c hc ▸ by decide, '1', _, List.replicate_succ, by decide⟩
  have hread : Json.read text = .error (.longInteger (Json.digitLimit + 1)) := by
    refine (Json.read_long hwhole ?_).trans ?_
    · rw [List.length_replicate]
      exact Nat.lt_succ_self _
    · rw [List.length_replicate]
  have htext : Text.read text = text := Text.read_of_legible fun c hc => by
    rw [String.toList_ofList] at hc
    rw [hdigits c hc]
    decide
  have hnode : d.node (Config.path d) = .file text := rfl
  have hload := Config.load_of_node hnode "a"
  rw [htext, Config.ofText_longInteger hread] at hload
  have hdash : ComesTo empty "a" text ["convert", "-"] (Text.read text) :=
    comesTo_dash (Config.loadOrDefault_missing (by decide) "a") text
  rw [htext] at hdash
  have hrun := run_unreadable hdash hread
  refine ⟨⟨fun c h => ?_, fun fault h => ?_⟩, hdash, fun j h => ?_, ?_, ?_⟩
  · exact absurd (hload.symm.trans h) nofun
  · exact absurd (hload.symm.trans h) nofun
  · exact absurd (hread.symm.trans h) nofun
  · rw [hrun]
    rfl
  · rw [hrun]
    exact nofun

end CommandLine

end GraphScript
