/-
  GraphScript.CommandLine.Arguments — what a command line asks for.

  An option is a word after two dashes, with a value after `=` or in the next argument, or a letter
  after one dash; letters can be joined, and the last of them can have its value behind it. Two
  dashes alone end the options. Before the command options come first; after it options and operands
  may be mixed. The last of several values counts.
-/
import GraphScript.State.Translate

namespace GraphScript.CommandLine

inductive Switch where
  | verbose | version | help
  | output | write | format | graphFlags | noGraphFlags
  deriving DecidableEq, Repr

def Switch.takesValue : Switch → Bool
  | .output | .format => true
  | _ => false

/-- The options of one part of a command line. -/
structure Options where
  letters : List (Char × Switch)
  words : List (String × Switch)
  /-- Whether operands may stand before options. -/
  mixed : Bool

/-- An option that was given, with its value if it takes one. -/
abbrev Given := Switch × String

/-! ## One argument -/

inductive Argument where
  | operand
  | endOfOptions
  | options (given : List Given)
  /-- Options, and one more whose value is the next argument. -/
  | awaiting (given : List Given) (last : Switch)
  | unknown

/-- Letters after one dash. -/
def Options.readLetters (o : Options) (before : List Given) : List Char → Argument
  | [] => .options before
  | c :: rest =>
    match o.letters.lookup c with
    | none => .unknown
    | some s =>
      if s.takesValue then
        if rest.isEmpty then .awaiting before s else .options (before ++ [(s, String.ofList rest)])
      else o.readLetters (before ++ [(s, "")]) rest

/-- A word after two dashes, from the dashes on. -/
def Options.readWord (o : Options) (argument : List Char) : Argument :=
  let word := argument.takeWhile (· ≠ '=')
  let value := argument.dropWhile (· ≠ '=')
  match o.words.lookup (String.ofList word) with
  | none => .unknown
  | some s =>
    match s.takesValue, value with
    | true, [] => .awaiting [] s
    | true, _ :: value => .options [(s, String.ofList value)]
    | false, [] => .options [(s, "")]
    | false, _ :: _ => .unknown

def Options.readArgument (o : Options) (argument : String) : Argument :=
  match argument.toList with
  | ['-', '-'] => .endOfOptions
  | '-' :: '-' :: rest => o.readWord ('-' :: '-' :: rest)
  | '-' :: c :: rest => o.readLetters [] (c :: rest)
  | _ => .operand

/-! ## All of them -/

/-- The options in order, and the operands. -/
def Options.read (o : Options) : List String → Option (List Given × List String)
  | [] => some ([], [])
  | argument :: rest =>
    match o.readArgument argument with
    | .endOfOptions => some ([], rest)
    | .unknown => none
    | .operand =>
      if o.mixed then (o.read rest).map fun (given, operands) => (given, argument :: operands)
      else some ([], argument :: rest)
    | .options found => (o.read rest).map fun (given, operands) => (found ++ given, operands)
    | .awaiting found s =>
      match rest with
      | [] => none
      | value :: rest => (o.read rest).map fun (given, operands) => (found ++ (s, value) :: given, operands)

/-! ## Commands -/

def groupOptions : Options where
  letters := [('v', .verbose)]
  words := [("--verbose", .verbose), ("--version", .version), ("--help", .help)]
  mixed := false

def initOptions : Options where
  letters := []
  words := [("--help", .help)]
  mixed := true

def convertOptions : Options where
  letters := [('o', .output), ('w', .write)]
  words := [("--output", .output), ("--write", .write), ("--format", .format), ("--graph-flags", .graphFlags),
    ("--no-graph-flags", .noGraphFlags), ("--help", .help)]
  mixed := true

/-- A conversion as it is asked for: its options in order, and its operands. -/
structure Request where
  given : List Given
  operands : List String
  deriving DecidableEq, Repr

inductive Topic where
  | program | init | convert
  deriving DecidableEq, Repr

inductive Command where
  | help (topic : Topic)
  | version
  | init
  | convert (request : Request)
  deriving DecidableEq, Repr

structure Invocation where
  verbose : Bool
  command : Command
  deriving DecidableEq, Repr

def has (given : List Given) (s : Switch) : Bool := given.any (·.1 == s)

def lastValue? (given : List Given) (s : Switch) : Option String := (given.reverse.find? (·.1 == s)).map (·.2)

namespace Request

def output (r : Request) : Option String := lastValue? r.given .output

def write (r : Request) : Bool := has r.given .write

/-- The form that is named, a script by default. -/
def form? (r : Request) : Option Form :=
  match lastValue? r.given .format with
  | none | some "dest" => some .script
  | some "ir" => some .dump
  | some _ => none

def graphFlags (r : Request) : Option Bool :=
  r.given.reverse.findSome? fun
    | (.graphFlags, _) => some true
    | (.noGraphFlags, _) => some false
    | _ => none

end Request

def readInit (arguments : List String) : Option Command := do
  let (given, operands) ← initOptions.read arguments
  if has given .help then return .help .init
  match operands with
  | [] => some .init
  | _ => none

def readConvert (arguments : List String) : Option Command := do
  let (given, operands) ← convertOptions.read arguments
  return if has given .help then .help .convert else .convert ⟨given, operands⟩

/-- The first option that is an answer by itself. -/
def immediate? (given : List Given) : Option Command :=
  given.findSome? fun
    | (.help, _) => some (.help .program)
    | (.version, _) => some .version
    | _ => none

/-- Whether a word in the place of a command looks like an option. -/
def looksLikeOption (word : String) : Bool :=
  match word.toList with
  | [] => false
  | c :: _ => c.toNat < 128 && !c.isAlphanum

/-- What the arguments ask for, or nothing when they are misused. -/
def readInvocation (arguments : List String) : Option Invocation := do
  if arguments.isEmpty then return ⟨false, .help .program⟩
  let (given, operands) ← groupOptions.read arguments
  let verbose := has given .verbose
  match immediate? given, operands with
  | some command, _ => return ⟨verbose, command⟩
  | none, "init" :: rest => return ⟨verbose, ← readInit rest⟩
  | none, "convert" :: rest => return ⟨verbose, ← readConvert rest⟩
  | none, [] => none
  | none, word :: _ => if looksLikeOption word then return ⟨verbose, .help .program⟩ else none

end GraphScript.CommandLine
