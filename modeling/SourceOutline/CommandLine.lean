import SourceOutline.CommandLine.Options
import SourceOutline.Config
import SourceOutline.Files.Collection
import SourceOutline.Response.Encoding

/-!
# The command line

What the program does when it is started with arguments: it analyses files, folders or its input,
checks files or its input, or serves requests. `Invocation.ofArguments` reads the arguments, and
`run` does what they say, with whatever access to files it is given.

A run ends with an `Outcome`. The settings are read first, so a fault in them comes before all
others; arguments that are not possible are found out even before that.
-/

namespace SourceOutline

namespace CommandLine

/-! ### Arguments -/

/-- The number of a port that a text stands for. -/
def portOfText? (text : String) : Option Nat :=
  let (negative, digits) :=
    match text.toList with
    | '-' :: digits => (true, digits)
    | '+' :: digits => (false, digits)
    | digits => (false, digits)
  if digits.isEmpty || !digits.all Char.isDigit then none
  else
    let size := digits.foldl (fun value c => value * 10 + (c.toNat - '0'.toNat)) 0
    if size < UInt16.size && !(negative && size != 0) then some size else none

/-- What is to be done. -/
inductive Command where
  /-- Report about files and about the sources in folders; without any, about the input. -/
  | analyze (inputs folders : List String) (compact : Bool)
  /-- Say which files are programs; without any, whether the input is. -/
  | validate (inputs : List String)
  /-- Serve requests, on the given port or on the one that is set. -/
  | serve (port : Option Nat)
  deriving Repr, DecidableEq

/-- All that the arguments say. -/
structure Invocation where
  command : Command
  /-- The file with the settings that is asked for. -/
  config : Option String
  deriving Repr, DecidableEq

/-- Whether a text can be a path. -/
def isPath (text : String) : Bool :=
  text != ""

/-- The options that are possible in front of a command and behind it. -/
def sharedOptions : List OptionSpec :=
  [⟨"config", none, .single isPath⟩, ⟨"verbose", some 'v', .flag⟩, ⟨"help", some 'h', .help⟩]

/-- The options in front of a command. -/
def programOptions : List OptionSpec :=
  sharedOptions ++ [⟨"version", some 'V', .version⟩]

/-- The option for files. -/
def inputOption : OptionSpec :=
  ⟨"input", some 'i', .repeated isPath⟩

/-- The names of the commands. -/
def commandNames : List String :=
  ["analyze", "validate", "serve", "help"]

/-- The options behind a command. -/
def commandOptions (name : String) : List OptionSpec :=
  match name with
  | "analyze" =>
    sharedOptions ++ [inputOption, ⟨"folder", some 'd', .repeated isPath⟩, ⟨"compact", none, .flag⟩]
  | "validate" => sharedOptions ++ [inputOption]
  | "serve" => sharedOptions ++ [⟨"port", some 'p', .single fun text => (portOfText? text).isSome⟩]
  | _ => []

/-- The command with a name and the options given to it. -/
def Command.ofGiven? (name : String) (given : Given) : Option Command :=
  match name with
  | "analyze" =>
    some (.analyze (given.values "input") (given.values "folder") (given.has "compact"))
  | "validate" => some (.validate (given.values "input"))
  | "serve" => some (.serve ((given.value? "port").bind portOfText?))
  | _ => none

/-- Why there is no run where help is asked for about commands: because help is given, if these are
at most one and it is known. -/
def haltOfHelp : (names : List String) → Halt
  | [] => .help
  | [name] => if commandNames.contains name then .help else .misuse
  | _ => .misuse

/-- Reads the arguments. An option that is possible in front of a command and behind it counts
behind it where it is given twice. -/
def Invocation.ofArguments (arguments : List String) : Except Halt Invocation := do
  let (before, found) ← readArguments programOptions commandNames {} arguments
  match found with
  | none => throw .misuse
  | some ("help", names) => throw (haltOfHelp names)
  | some (name, rest) =>
    let (behind, _) ← readArguments (commandOptions name) [] {} rest
    match Command.ofGiven? name behind with
    | none => throw .misuse
    | some command =>
      pure ⟨command, (behind.value? "config").or (before.value? "config")⟩

/-! ### Runs -/

/-- How a run ends. -/
inductive Outcome where
  /-- It has printed its results. -/
  | printed (text : String)
  | failed (fault : FileFault)
  | misused
  /-- It serves requests from now on. -/
  | serving (port : Nat)
  deriving Repr, DecidableEq

namespace Outcome

/-- The status that the program ends with. -/
def status : Outcome → Nat
  | printed _ => 0
  | failed _ => 1
  | misused => 2
  | serving _ => 0

/-- What is printed. -/
def printout : Outcome → String
  | printed text => text
  | _ => ""

/-- The message about what went wrong. -/
def message? : Outcome → Option String
  | failed fault => some fault.message
  | _ => none

end Outcome

/-- The name and the version of the program. -/
def versionText : String := "pysift 0.1.0"

/-- How the program is used. -/
def usageText : String :=
  "Usage: pysift [OPTIONS] <COMMAND>\n\n" ++
  "Commands:\n" ++
  "  analyze   Report functions, classes, loops, conditionals, assignments and imports\n" ++
  "  validate  Check syntax only\n" ++
  "  serve     Serve line-delimited JSON requests over TCP\n" ++
  "  help      Print this message\n\n" ++
  "Options:\n" ++
  "      --config <CONFIG>  Config file (defaults to ./pysift.toml when present)\n" ++
  "  -v, --verbose          Enable verbose logging\n" ++
  "  -h, --help             Print help\n" ++
  "  -V, --version          Print version"

/-- What comes of arguments that are no invocation. -/
def Outcome.ofHalt : Halt → Outcome
  | .help => .printed (usageText ++ "\n")
  | .version => .printed (versionText ++ "\n")
  | .misuse => .misused

/-- The layout that the settings ask for. -/
def layoutOf (config : OutputConfig) (compact : Bool) : Json.Layout :=
  if config.pretty && !compact then .pretty config.indent else .compact

/-- Texts on a line each. -/
def unlines (lines : List String) : String :=
  String.join (lines.map (· ++ "\n"))

section

variable [CharacterNames] {m : Type → Type} [Monad m]

/-- Reads the input. -/
def readInput (input : m ByteArray) : ExceptT FileFault m String := do
  match String.fromUTF8? (← input) with
  | some text => pure text
  | none => throw .unreadableInput

/-- Reads the files that can be read, which must be one at least. -/
def readSources (files : FileAccess m) (paths : List String) :
    ExceptT FileFault m (List SourceFile) := do
  let sources ← paths.filterMapM fun path => do
    pure ((← files.text? path).map fun text => ({ path, text } : SourceFile))
  if sources.isEmpty then throw .noSources else pure sources

/-- Reports about files, folders or the input. -/
def runAnalyze (files : FileAccess m) (input : m ByteArray) (config : Config)
    (inputs folders : List String) (compact : Bool) : ExceptT FileFault m String := do
  let layout := layoutOf config.output compact
  if inputs.isEmpty && folders.isEmpty then
    let text ← readInput input
    pure (unlines [(AnalysisResponse.ofText text.toList).toJson.render layout])
  else
    let found ← folders.mapM fun folder =>
      ExceptT.mk (files.collect config.scan.exclude folder)
    let sources ← readSources files (inputs ++ found.flatten)
    let reports := (SourceFile.analyses sources).map (·.toJson AnalysisResponse.toJson)
    pure (unlines [(Json.array reports).render layout])

/-- Says which files are programs, or whether the input is. -/
def runValidate (files : FileAccess m) (input : m ByteArray) (inputs : List String) :
    ExceptT FileFault m String := do
  if inputs.isEmpty then
    let text ← readInput input
    pure (unlines [(ValidationResponse.ofText text.toList).toJson.render .compact])
  else
    let sources ← readSources files inputs
    pure (unlines (sources.map fun file =>
      (file.validation.toJson ValidationResponse.toJson).render .compact))

/-- Does what an invocation says. -/
def Invocation.run (files : FileAccess m) (input : m ByteArray) (invocation : Invocation) :
    ExceptT FileFault m Outcome := do
  let config ← ExceptT.mk (Config.load files invocation.config)
  match invocation.command with
  | .analyze inputs folders compact =>
    pure (.printed (← runAnalyze files input config inputs folders compact))
  | .validate inputs => pure (.printed (← runValidate files input inputs))
  | .serve port => pure (.serving (port.getD config.server.port))

/-- Does what the arguments say. -/
def run (files : FileAccess m) (input : m ByteArray) (arguments : List String) : m Outcome := do
  match Invocation.ofArguments arguments with
  | .error halt => pure (.ofHalt halt)
  | .ok invocation =>
    match ← (invocation.run files input).run with
    | .ok outcome => pure outcome
    | .error fault => pure (.failed fault)

end

end CommandLine

end SourceOutline
