/-
  GraphScript.Main — the program: the real disk around a run.

  What the run may look at is read into a disk value first, and what it changed is written
  afterwards.
-/
import GraphScript.CommandLine.Run

namespace GraphScript.CommandLine

/-- The path that a text names from a folder, links not followed. -/
def pathFrom (here : Path) (s : String) : Path :=
  (PathText.names s).foldl (fun p name => if name = ".." then p.dropLast else p ++ [name])
    (if PathText.root s = "" then here else [])

def nameOf (p : Path) : String := "/" ++ Text.joined "/" p

/-- The files and folders that a run with these arguments may look at, the configuration being read already. -/
def watched (d : Disk) (name : String) (arguments : List String) : List Path :=
  match readInvocation arguments with
  | some ⟨_, .convert r⟩ =>
    let beside := match Config.loadOrDefault d name with
      | .ok config => r.operands.filterMap (PathText.withSuffix? · config.outputSuffix)
      | .error _ => []
    (r.operands ++ r.output.toList ++ beside).flatMap fun s => [pathFrom d.here s, (pathFrom d.here s).dropLast]
  | _ => []

def readsStdin (arguments : List String) : Bool :=
  match readInvocation arguments with
  | some ⟨_, .convert r⟩ => r.operands == ["-"]
  | _ => false

def FileFault.message : FileFault → String
  | .missing => "no such file or folder"
  | .notFolder => "not a folder"
  | .isFolder => "is a folder"
  | .exists => "file exists"
  | .nullCharacter => "null character in a path"
  | .nameTooLong => "a name is too long"

def Failure.message : Failure → String
  | .document fault => fault.message?.getD "a value of the document has the wrong type"
  | .config (.refused fault) => fault.message
  | .config (.longInteger digits) => (Json.ReadError.longInteger digits).message
  | .config (.absent place) => "No config found at " ++ place
  | .config (.file fault) | .file fault => FileFault.message fault
  | .suffix given => "Invalid suffix " ++ Text.display given

/-- Adds what is on the real disk at a path. -/
def look (d : Disk) (p : Path) : IO Disk := do
  try
    let real ← IO.FS.realPath (nameOf p)
    if ← real.isDir then return { d with folders := d.folders ++ [p] }
    return { d with files := Disk.put d.files p (← IO.FS.readFile real) }
  catch _ => return d

partial def readAll (stream : IO.FS.Stream) (before : String) : IO String := do
  let line ← stream.getLine
  if line.isEmpty then return before else readAll stream (before ++ line)

def runMain (arguments : List String) : IO UInt32 := do
  let here := pathFrom [] (← IO.currentDir).toString
  let bare : Disk := { here, files := [] }
  let configured ← look bare (Config.path bare)
  let disk ← (watched configured (nameOf here) arguments).foldlM look configured
  let stdin ← if readsStdin arguments then readAll (← IO.getStdin) "" else pure ""
  let report := run disk (nameOf here) { text := stdin, translated := false } arguments
  for (p, content) in report.disk.changesSince disk do
    IO.FS.createDirAll (nameOf p.dropLast)
    IO.FS.writeFile (nameOf p) content
  IO.print report.stdout
  IO.eprint report.stderr
  if let some failure := report.failure then IO.eprintln ("Error: " ++ Failure.message failure)
  return report.exit.toUInt32

end GraphScript.CommandLine

def main (arguments : List String) : IO UInt32 := GraphScript.CommandLine.runMain arguments
