/-
  GraphScript.State.Translate — a graph state, translated into a program.

  Only documents of the supported version are translated. The seed comes first, then the graph flags
  where they are asked for, the settings, and the items.
-/
import GraphScript.State.Folders
import GraphScript.State.Settings

namespace GraphScript

/-- Whether a document of this version can be translated; true is no version. -/
def isSupported : Json → Bool
  | .bool _ => false
  | version => version.equals (.int supportedVersion)

/-- The fields of a document of the supported version. -/
def stateFields (state : Json) : Except Fault Json.Fields :=
  match state.fields with
  | .error _ => .error (.unsupportedVersion .null)
  | .ok fs =>
    if isSupported (fs.get "version") then .ok fs else .error (.unsupportedVersion (fs.get "version"))

/-- The graph of a state; one that is not truthy is empty. -/
def graphOf (fs : Json.Fields) : Json := if fs.truthy "graph" then fs.get "graph" else .obj []

def stateSettings (graphFlags : Bool) (fs : Json.Fields) : Except Fault (List Setting) := do
  let seed := if fs.has "randomSeed" then some (.seed (fs.get "randomSeed")) else none
  let flags ← if graphFlags then flagsSetting (graphOf fs) else .ok none
  return seed.toList ++ flags.toList ++ (← graphSettings (graphOf fs))

/-- The entries of the list of expressions. -/
def stateItems (fs : Json.Fields) : Except Fault (List Json) := do
  let expressions ← (fs.get "expressions").nested
  (expressions.get "list").membersIfAny

/-- The settings of a state and its items, not yet translated. -/
def stateParts (graphFlags : Bool) (state : Json) : Except Fault (List Setting × List Json) := do
  let fs ← stateFields state
  return (← stateSettings graphFlags fs, ← stateItems fs)

def translate (graphFlags : Bool) (state : Json) : Outcome Program :=
  match stateParts graphFlags state with
  | .error fault => ⟨[], .error fault⟩
  | .ok (settings, items) =>
    let walked := foldersOf items
    match walked.result with
    | .error fault => ⟨walked.log, .error fault⟩
    | .ok lines =>
      let all := settings.map Line.setting ++ lines
      ⟨walked.log ++ [.translated items.length all.length], .ok ⟨all⟩⟩

/-! ## Documents as text -/

/-- What a program is written as. -/
inductive Form where
  | script
  | dump
  deriving DecidableEq, Repr

def Form.text (form : Form) (p : Program) : Except Fault String :=
  match form with
  | .script => p.script
  | .dump => .ok (p.dump.write (some (Json.spaces 2)))

def translateText (graphFlags : Bool) (content : String) : Outcome Program :=
  match Json.read content with
  | .error e => ⟨[], .error (.unreadable e)⟩
  | .ok state => translate graphFlags state

def convert (form : Form) (graphFlags : Bool) (content : String) : Outcome String :=
  let translated := translateText graphFlags content
  ⟨translated.log, translated.result.bind form.text⟩

end GraphScript
