/-
  GraphScript.Config — the configuration of a folder.

  It says whether graph flags are written, and the suffix of files that stand next to their source.
  It lies in `.desmos-text/config.json`. A file that is no JSON object, or has a wrong value for one
  of the two, is refused; what else it holds does not matter.
-/
import GraphScript.Disk.Basic
import GraphScript.Json.Reader
import GraphScript.Json.Writer

namespace GraphScript

structure Config where
  graphFlags : Bool := false
  outputSuffix : String := ".dest"
  deriving DecidableEq, Repr

inductive ConfigFault where
  | notJson (file : String) (error : Json.ReadError)
  | notObject (file : String)
  | graphFlags
  | outputSuffix
  deriving DecidableEq, Repr

def ConfigFault.message : ConfigFault → String
  | .notJson file error => "Invalid JSON in " ++ file ++ ": " ++ error.message
  | .notObject file => "Config at " ++ file ++ " must be a JSON object"
  | .graphFlags => "graph_flags must be true or false"
  | .outputSuffix => "output_suffix must be a string starting with '.'"

inductive LoadFault where
  | refused (fault : ConfigFault)
  | longInteger (digits : Nat)
  | absent (file : String)
  | file (fault : FileFault)

namespace Config

def folderName : String := ".desmos-text"

def fileName : String := "config.json"

def folder (d : Disk) : Path := d.here ++ [folderName]

def path (d : Disk) : Path := folder d ++ [fileName]

/-- The configuration file of the folder with this name, as messages name it. -/
def place (folder : String) : String := folder ++ "/" ++ folderName ++ "/" ++ fileName

/-! ## As text -/

/-- What a configuration file holds; only a flag and a suffix are read again. -/
def textOf (graphFlags outputSuffix : Json) : String :=
  (Json.obj [("graph_flags", graphFlags), ("output_suffix", outputSuffix)]).write (some (Json.spaces 2)) ++ "\n"

def text (c : Config) : String := textOf (.bool c.graphFlags) (.str c.outputSuffix)

/-- The value of a key, or another where the key is missing. -/
def field (fields : Json.Fields) (key : String) (other : Json) : Json := (fields.lookup key).getD other

def ofFields (fields : Json.Fields) : Except ConfigFault Config :=
  match field fields "graph_flags" (.bool false), field fields "output_suffix" (.str ".dest") with
  | .bool graphFlags, .str suffix =>
    if suffix.toList.head? = some '.' then .ok ⟨graphFlags, suffix⟩ else .error .outputSuffix
  | .bool _, _ => .error .outputSuffix
  | _, _ => .error .graphFlags

def ofText (file text : String) : Except LoadFault Config :=
  match Json.read text with
  | .error (.longInteger digits) => .error (.longInteger digits)
  | .error error => .error (.refused (.notJson file error))
  | .ok (.obj fields) => (ofFields fields).mapError .refused
  | .ok _ => .error (.refused (.notObject file))

/-! ## On a disk -/

def isInitialized (d : Disk) : Bool := d.node (path d) != .missing

/-- Writes the configuration file of the working folder. -/
def save (d : Disk) (graphFlags outputSuffix : Json) : Except FileFault Disk :=
  match d.node (folder d) with
  | .file _ => .error .exists
  | _ => d.writePath (path d) (textOf graphFlags outputSuffix)

/-- Reads the configuration file of the working folder, which has this name. -/
def load (d : Disk) (name : String) : Except LoadFault Config :=
  match d.readPath (path d) with
  | .ok text => ofText (place name) text
  | .error .missing => .error (.absent (place name))
  | .error fault => .error (.file fault)

def loadOrDefault (d : Disk) (name : String) : Except LoadFault Config :=
  if isInitialized d then load d name else .ok {}

end Config

end GraphScript
