/-
  GraphScript.Proofs.Configuration — what a configuration that was saved is loaded as.

  Any two values can be saved as a configuration. The text goes into the file as it is and comes out
  of it unchanged, since all of it is legible, and it is read as the two values. What they are is
  looked at only then, the flag first: so a flag and a dotted suffix come back, and anything else is
  refused by the name of the first that is wrong.

  - `load_saved`
-/
import GraphScript.CommandLine.Run
import GraphScript.Proofs.Disk.Suffixes
import GraphScript.Proofs.Disk.Writing
import GraphScript.Proofs.Json.Legible

namespace GraphScript.Config

open Faults

/-- The fields of a configuration, whatever their values are. -/
def fieldsOf (graphFlags outputSuffix : Json) : Json.Fields :=
  [("graph_flags", graphFlags), ("output_suffix", outputSuffix)]

section

variable {d saved : Disk} {name : String} {g s : Json}

/-! ## Saving -/

theorem save_eq_ok : save d g s = .ok saved ↔
    (∀ content, d.node (folder d) ≠ .file content) ∧ d.writePath (path d) (textOf g s) = .ok saved := by
  unfold save
  split
  · rename_i content hfile
    exact ⟨nofun, fun h => absurd hfile (h.1 content)⟩
  · rename_i hfolder
    exact ⟨fun h => ⟨fun content hfile => hfolder content hfile, h⟩, fun h => h.2⟩

/-- It can be saved unless a file stands in the place of its folder, or a folder in its own. -/
theorem save_succeeds : Succeeds (save d g s) ↔
    (∀ content, d.node (folder d) ≠ .file content) ∧ d.node (path d) ≠ .folder := by
  constructor
  · intro h
    obtain ⟨saved, h⟩ := h
    obtain ⟨hfolder, hwrite⟩ := save_eq_ok.mp h
    exact ⟨hfolder, (Disk.writePath_eq_ok.mp hwrite).1⟩
  · intro h
    exact ⟨_, save_eq_ok.mpr ⟨h.1, Disk.writePath_eq_ok.mpr ⟨h.2, rfl⟩⟩⟩

theorem node_saved (h : save d g s = .ok saved) : saved.node (path saved) = .file (textOf g s) := by
  obtain ⟨-, rfl⟩ := Disk.writePath_eq_ok.mp (save_eq_ok.mp h).2
  exact (Disk.node_written _ _ _ _).trans (if_pos rfl)

/-! ## The text -/

theorem read_textOf (g s : Json) : Text.read (textOf g s) = textOf g s := by
  refine Text.read_of_legible ?_
  rw [textOf, String.toList_append, Text.legible_append]
  exact ⟨Json.write_legible (some 2) _, by decide⟩

theorem fieldsOf_sound (hg : g.Sound) (hs : s.Sound) : (fieldsOf g s).Sound := by
  refine ⟨by simp [fieldsOf], fun f hf => ?_⟩
  rcases List.mem_cons.mp hf with rfl | hf
  · exact hg
  · rw [List.mem_singleton.mp hf]
    exact hs

theorem ofText_textOf (hg : g.Sound) (hs : s.Sound) (file : String) :
    ofText file (textOf g s) = (ofFields (fieldsOf g s)).mapError .refused := by
  have hbreak : Json.Blank "\n".toList := List.forall_mem_singleton.mpr (by decide)
  have hread : Json.read (textOf g s) = .ok (.obj (fieldsOf g s)) :=
    Json.read_write_append (Json.blankIndent_spaces (some 2)) (Json.sound_obj.mpr (fieldsOf_sound hg hs)) hbreak
  rw [ofText, hread]

/-! ## The fields -/

theorem ofFields_bool (b : Bool) (s : Json) : ofFields (fieldsOf (.bool b) s) =
    match s with
    | .str suffix => if suffix.toList.head? = some '.' then .ok ⟨b, suffix⟩ else .error .outputSuffix
    | _ => .error .outputSuffix := by
  cases s <;> rfl

/-- A flag that is neither true nor false is what is told, whatever the suffix is. -/
theorem ofFields_no_bool (hg : ∀ b, g ≠ .bool b) : ofFields (fieldsOf g s) = .error .graphFlags := by
  cases g with
  | bool b => exact absurd rfl (hg b)
  | _ => cases s <;> rfl

theorem ofFields_no_suffix {b : Bool} (hs : ∀ suffix, s = .str suffix → suffix.toList.head? ≠ some '.') :
    ofFields (fieldsOf (.bool b) s) = .error .outputSuffix := by
  rw [ofFields_bool]
  cases s with
  | str suffix => exact if_neg (hs suffix rfl)
  | _ => rfl

theorem ofFields_eq_ok {c : Config} : ofFields (fieldsOf g s) = .ok c ↔
    g = .bool c.graphFlags ∧ s = .str c.outputSuffix ∧ c.outputSuffix.toList.head? = some '.' := by
  constructor
  · intro h
    by_cases hb : ∃ b, g = .bool b
    · obtain ⟨b, rfl⟩ := hb
      rw [ofFields_bool] at h
      split at h
      · split at h
        · rename_i hdot
          cases h
          exact ⟨rfl, rfl, hdot⟩
        · cases h
      · cases h
    · rw [ofFields_no_bool (not_exists.mp hb)] at h
      cases h
  · intro h
    obtain ⟨rfl, rfl, hdot⟩ := h
    rw [ofFields_bool]
    exact if_pos hdot

/-! ## Loading -/

theorem load_of_node {text : String} (h : d.node (path d) = .file text) (name : String) :
    load d name = ofText (place name) (Text.read text) := by
  rw [load, Disk.readPath, h]

/-- What is loaded depends on nothing but the two values. -/
theorem load_eq (hg : g.Sound) (hs : s.Sound) (h : save d g s = .ok saved) (name : String) :
    load saved name = (ofFields (fieldsOf g s)).mapError .refused := by
  rw [load_of_node (node_saved h), read_textOf, ofText_textOf hg hs]

theorem isInitialized_iff : isInitialized d = true ↔ d.node (path d) ≠ .missing := by
  simp [isInitialized]

theorem load_of_text {c : Config} (hnode : d.node (path d) = .file c.text)
    (hdot : PathText.IsDotted c.outputSuffix) (name : String) : load d name = .ok c := by
  rw [load_of_node hnode, text, read_textOf, ofText_textOf (.bool _) (.str _), ofFields_eq_ok.mpr ⟨rfl, rfl, hdot⟩]
  rfl

theorem loadOrDefault_of_text {c : Config} (hnode : d.node (path d) = .file c.text)
    (hdot : PathText.IsDotted c.outputSuffix) (name : String) : loadOrDefault d name = .ok c := by
  have hthere : isInitialized d = true := isInitialized_iff.mpr (by rw [hnode]; exact nofun)
  rw [loadOrDefault, if_pos hthere, load_of_text hnode hdot]

/-- What `init` saves is what counts where nothing is saved. -/
theorem loadOrDefault_saved {c : Config} (hdot : c.outputSuffix.toList.head? = some '.')
    (h : save d (.bool c.graphFlags) (.str c.outputSuffix) = .ok saved) (name : String) :
    loadOrDefault saved name = .ok c :=
  loadOrDefault_of_text (node_saved h) hdot name

end

/-- Two values that are saved as a configuration, over whatever the file held before, are loaded again exactly when
    they are a flag and a suffix that starts with a dot; a first value that is no flag is refused as such, and after it
    a second one that is no such suffix. What `init` saves in a folder without a configuration is the configuration
    that it has without one. -/
theorem load_saved (d : Disk) (name : String) {g s : Json} (hg : g.Sound) (hs : s.Sound) :
    (Succeeds (save d g s) ↔ (∀ content, d.node (folder d) ≠ .file content) ∧ d.node (path d) ≠ .folder) ∧
    (∀ saved, save d g s = .ok saved →
      (∀ c, load saved name = .ok c ↔
        g = .bool c.graphFlags ∧ s = .str c.outputSuffix ∧ c.outputSuffix.toList.head? = some '.') ∧
      ((∀ b, g ≠ .bool b) → load saved name = .error (.refused .graphFlags)) ∧
      (∀ b, g = .bool b → (∀ suffix, s = .str suffix → suffix.toList.head? ≠ some '.') →
        load saved name = .error (.refused .outputSuffix))) ∧
    (d.node (path d) = .missing → ∀ saved, save d (.bool ({} : Config).graphFlags) (.str ({} : Config).outputSuffix) =
      .ok saved → (CommandLine.runInit d name).disk = saved ∧ loadOrDefault saved name = loadOrDefault d name) := by
  refine ⟨save_succeeds, fun saved h => ⟨fun c => ?_, fun hno => ?_, fun b hb hno => ?_⟩, fun hmissing saved h => ?_⟩
  · rw [load_eq hg hs h, ← ofFields_eq_ok]
    cases ofFields (fieldsOf g s) <;> simp [Except.mapError]
  · rw [load_eq hg hs h, ofFields_no_bool hno]
    rfl
  · subst hb
    rw [load_eq hg hs h, ofFields_no_suffix hno]
    rfl
  · have hno : ¬ isInitialized d = true := fun hthere => isInitialized_iff.mp hthere hmissing
    have hinit : (CommandLine.runInit d name).disk = saved := by
      rw [CommandLine.runInit, if_neg hno]
      dsimp only
      rw [h]
      rfl
    rw [loadOrDefault_saved (by decide) h, loadOrDefault, if_neg hno]
    exact ⟨hinit, rfl⟩

/-- Over a file that is no JSON: a suffix with a quote, a carriage return and a character beyond the first plane comes
    back, one is no flag, and a suffix without a dot is none. -/
theorem load_saved_over_a_broken_file :
    let d : Disk := ⟨["a"], [(["a", ".desmos-text", "config.json"], "\x7b")], []⟩
    let suffix := ".\"\r\x7f𝔸"
    (∃ saved, save d (.bool true) (.str suffix) = .ok saved ∧ load saved "a" = .ok ⟨true, suffix⟩) ∧
    (∃ saved, save d (.int 1) (.str suffix) = .ok saved ∧ load saved "a" = .error (.refused .graphFlags)) ∧
    (∃ saved, save d (.bool true) (.str "dest") = .ok saved ∧
      load saved "a" = .error (.refused .outputSuffix)) := by
  intro d suffix
  have hfolder : d.node (folder d) = .folder := by decide
  have hfile : d.node (path d) = .file "\x7b" := by decide
  have hplace : (∀ content, d.node (folder d) ≠ .file content) ∧ d.node (path d) ≠ .folder := by
    rw [hfolder, hfile]
    exact ⟨nofun, nofun⟩
  have hone : Json.Sound (.int 1) := .int (by decide)
  refine ⟨?_, ?_, ?_⟩
  · have h := load_saved d "a" (.bool true) (.str suffix)
    obtain ⟨saved, hsaved⟩ := h.1.mpr hplace
    exact ⟨saved, hsaved, ((h.2.1 saved hsaved).1 ⟨true, suffix⟩).mpr ⟨rfl, rfl, by decide⟩⟩
  · have h := load_saved d "a" hone (.str suffix)
    obtain ⟨saved, hsaved⟩ := h.1.mpr hplace
    exact ⟨saved, hsaved, (h.2.1 saved hsaved).2.1 nofun⟩
  · have h := load_saved d "a" (.bool true) (.str "dest")
    obtain ⟨saved, hsaved⟩ := h.1.mpr hplace
    refine ⟨saved, hsaved, (h.2.1 saved hsaved).2.2 true rfl fun t ht => ?_⟩
    cases ht
    decide

end GraphScript.Config
