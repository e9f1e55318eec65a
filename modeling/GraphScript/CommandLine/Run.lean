/-
  GraphScript.CommandLine.Run — one run of the program, from a disk to a report.

  A run that is misused ends with 2. One that fails ends with 1: a refused document or configuration
  is told on standard error, any other failure is left to the caller. Nothing is printed or written
  before the converted text is complete, the log excepted, which comes before everything else on
  standard error.
-/
import GraphScript.CommandLine.Arguments
import GraphScript.Config
import GraphScript.Text.Plain

namespace GraphScript.CommandLine

/-- A failure that the program does not tell of itself. -/
inductive Failure where
  | document (fault : Fault)
  | config (fault : LoadFault)
  | file (fault : FileFault)
  | suffix (suffix : String)

structure Report where
  exit : Nat
  stdout : String
  stderr : String
  disk : Disk
  failure : Option Failure

/-- How a run ends before its time. -/
inductive Ending where
  | misused
  | told (message : String)
  | failed (failure : Failure)

/-! ## Texts -/

def version : String := "desmos-text, version 0.1.0"

def misuse : String := "Usage: desmos-text [OPTIONS] COMMAND [ARGS]...\nTry 'desmos-text --help' for help."

def Topic.help : Topic → String
  | .program =>
    "Usage: desmos-text [OPTIONS] COMMAND [ARGS]...\n\n  Translate Desmos graph state JSON into DEST text.\n\n"
      ++ "Options:\n  --version      Show the version and exit.\n  -v, --verbose  Log translation details\n"
      ++ "  --help         Show this message and exit.\n\nCommands:\n"
      ++ "  convert  Convert a graph state JSON file (or \x60-\x60 for stdin).\n"
      ++ "  init     Write a default configuration file in the current directory."
  | .init =>
    "Usage: desmos-text init [OPTIONS]\n\n  Write a default configuration file in the current directory.\n\n"
      ++ "Options:\n  --help  Show this message and exit."
  | .convert =>
    "Usage: desmos-text convert [OPTIONS] INPUT_PATH\n\n"
      ++ "  Convert a graph state JSON file (or \x60-\x60 for stdin).\n\n"
      ++ "Options:\n  -o, --output FILE\n"
      ++ "  -w, --write                     Write next to the input file using the\n"
      ++ "                                  configured suffix\n  --format [dest|ir]\n"
      ++ "  --graph-flags / --no-graph-flags\n"
      ++ "                                  Emit the \x60flags:\x60 setting line\n"
      ++ "  --help                          Show this message and exit."

/-- A printed line. -/
def line (s : String) : String := Text.plain (s ++ "\n")

def logged (log : List Event) : String :=
  String.join (log.map fun event => "DEBUG desmos_text.translator: " ++ event.message ++ "\n")

/-! ## Reports -/

def succeed (disk : Disk) (stderr message : String) : Report := ⟨0, line message, stderr, disk, none⟩

def Ending.report (disk : Disk) (stderr : String) : Ending → Report
  | .misused => ⟨2, "", stderr ++ line misuse, disk, none⟩
  | .told message => ⟨1, "", stderr ++ line ("Error: " ++ message), disk, none⟩
  | .failed failure => ⟨1, "", stderr, disk, some failure⟩

def LoadFault.ending : LoadFault → Ending
  | .refused fault => .told fault.message
  | fault => .failed (.config fault)

/-- What a refused document is told as. -/
def Fault.told? : Fault → Option String
  | .unreadable (.malformed reason place) => some ("Invalid JSON: " ++ (Json.ReadError.malformed reason place).message)
  | .unreadable (.longInteger _) => none
  | .unsupportedVersion version => (Fault.unsupportedVersion version).message?
  | .unsupportedItem kind id => (Fault.unsupportedItem kind id).message?
  | .invariant broken => some broken.message
  | .notMember _ _ | .missingKey _ | .noMember | .wrongType => none

def Fault.ending (fault : Fault) : Ending :=
  match told? fault with
  | some message => .told message
  | none => .failed (.document fault)

/-! ## Conversion -/

/-- Standard input: its text, and whether the stream translates line ends, as one that is opened for a file does. -/
structure Stdin where
  text : String
  translated : Bool := true
  deriving DecidableEq, Repr

instance : Coe String Stdin := ⟨fun text => { text }⟩

/-- What is read of it. -/
def Stdin.read (stdin : Stdin) : String := if stdin.translated then Text.read stdin.text else stdin.text

structure Conversion where
  /-- A file, or a dash for standard input. -/
  input : String
  output : Option String
  write : Bool
  form : Form
  graphFlags : Option Bool
  deriving DecidableEq, Repr

/-- The operand must name a file. -/
def checkInput (d : Disk) (input : String) : Except Ending Unit :=
  if input = "-" then .ok ()
  else match d.nodeNamed input with
    | .ok (.file _) => .ok ()
    | .error .nullCharacter => .error (.failed (.file .nullCharacter))
    | _ => .error .misused

/-- An output must not name a folder. -/
def checkOutput (d : Disk) (path : String) : Except Ending Unit :=
  match d.nodeNamed path with
  | .ok .folder => .error .misused
  | .error .nullCharacter => .error (.failed (.file .nullCharacter))
  | _ => .ok ()

/-- Looks at the value of an option, the last one that it is given. -/
def checkOption (d : Disk) (r : Request) : Switch → Except Ending Unit
  | .output => match r.output with
    | some path => checkOutput d path
    | none => .ok ()
  | .format => if r.form?.isSome then .ok () else .error .misused
  | _ => .ok ()

/-- The conversion that is asked for. The values of the options are looked at in the order in which
the options are first given, then the operand; a second operand is refused last. -/
def conversion (d : Disk) (r : Request) : Except Ending Conversion := do
  r.given.forM fun (option, _) => checkOption d r option
  let some input := r.operands.head? | throw .misused
  checkInput d input
  match r.form?, r.operands with
  | some form, [_] => return ⟨input, r.output, r.write, form, r.graphFlags⟩
  | _, _ => throw .misused

/-- Where the text goes: to the named file, next to the source if asked for, or to standard output. -/
def target (c : Conversion) (suffix : String) : Except Ending (Option String) :=
  match c.output, c.write, c.input with
  | some path, _, _ => .ok (some path)
  | none, false, _ => .ok none
  | none, true, "-" => .error (.told "--write needs an input file, not stdin.")
  | none, true, input =>
    match PathText.withSuffix? input suffix with
    | some path => .ok (some path)
    | none => .error (.failed (.suffix suffix))

def source (d : Disk) (stdin : Stdin) (c : Conversion) : Except Ending String :=
  if c.input = "-" then .ok stdin.read
  else if PathText.suffix c.input = ".dest" then .error (.told "Converting DEST back to JSON is not supported.")
  else (d.read c.input).mapError fun fault => .failed (.file fault)

/-- What is to be converted, whether with graph flags, and where it goes. -/
def prepare (d : Disk) (name : String) (stdin : Stdin) (c : Conversion) :
    Except Ending (String × Bool × Option String) := do
  let config ← (Config.loadOrDefault d name).mapError LoadFault.ending
  let content ← source d stdin c
  return (content, c.graphFlags.getD config.graphFlags, ← target c config.outputSuffix)

def deliver (d : Disk) (stderr text : String) : Option String → Report
  | none => succeed d stderr text
  | some path =>
    match d.write path (text ++ "\n") with
    | .ok written => succeed written stderr ("Wrote: " ++ path)
    | .error fault => (Ending.failed (.file fault)).report d stderr

def runConversion (d : Disk) (name : String) (stdin : Stdin) (verbose : Bool) (c : Conversion) : Report :=
  match prepare d name stdin c with
  | .error ending => ending.report d ""
  | .ok (content, graphFlags, target) =>
    let converted := convert c.form graphFlags content
    let stderr := if verbose then logged converted.log else ""
    match converted.result with
    | .ok text => deliver d stderr text target
    | .error fault => (Fault.ending fault).report d stderr

def runConvert (d : Disk) (name : String) (stdin : Stdin) (verbose : Bool) (r : Request) : Report :=
  match conversion d r with
  | .error ending => ending.report d ""
  | .ok c => runConversion d name stdin verbose c

/-! ## All commands -/

def runInit (d : Disk) (name : String) : Report :=
  if Config.isInitialized d then succeed d "" "Warning: Configuration already exists. Leaving it unchanged."
  else
    let standard : Config := {}
    match Config.save d (.bool standard.graphFlags) (.str standard.outputSuffix) with
    | .ok saved => succeed saved "" ("Created: " ++ Config.place name)
    | .error fault => (Ending.failed (.file fault)).report d ""

/-- Runs the program in the working folder of a disk; `name` is what messages call that folder. -/
def run (d : Disk) (name : String) (stdin : Stdin) (arguments : List String) : Report :=
  match readInvocation arguments with
  | none => Ending.misused.report d ""
  | some ⟨_, .version⟩ => succeed d "" version
  | some ⟨_, .help topic⟩ => succeed d "" topic.help
  | some ⟨_, .init⟩ => runInit d name
  | some ⟨verbose, .convert r⟩ => runConvert d name stdin verbose r

end GraphScript.CommandLine
