import StateOwnership.CommandLine.Commands

/-!
# The program

The program takes options of its own, then the name of a command and the arguments of that command.
Logging is set up once the command is known and before its arguments are looked at, so the log file
is there even if they make no sense.
-/

namespace StateOwnership.CommandLine

/-! ## 1. Options -/

def programName : Text := "tfstate-index"

def programVersion : Text := "0.1.0"

def helpFlag : Spec := .flag "--help"

def versionFlag : Spec := .flag "--version"

def logLevelOption : Spec :=
  ⟨"--log-level", none, .choice ["DEBUG", "INFO", "WARNING", "ERROR"] true, false⟩

def logFileOption : Spec := ⟨"--log-file", none, .text, false⟩

def configOption : Spec := ⟨"--config", some "-c", .file, true⟩

def checkCredentialsFlag : Spec := .flag "--check-credentials"

def overwriteFlag : Spec := .flag "--overwrite"

def maxWorkersOption : Spec := ⟨"--max-workers", none, .integer, false⟩

def noPullFlag : Spec := .flag "--no-pull"

def formatOption : Spec := ⟨"--format", some "-f", .choice ["cli", "json"] false, false⟩

def outputOption : Spec := ⟨"--output", some "-o", .text, false⟩

def showResourcesFlag : Spec := .flag "--show-resources"

def programOptions : List Spec := [versionFlag, logLevelOption, logFileOption, helpFlag]

inductive Command where
  | validate
  | pull
  | index
  deriving DecidableEq, Repr

namespace Command

def name : Command → Text
  | .validate => "validate"
  | .pull => "pull"
  | .index => "index"

/-- The commands in the order of their names. -/
def all : List Command := [.index, .pull, .validate]

def options : Command → List Spec
  | .validate => [configOption, checkCredentialsFlag, helpFlag]
  | .pull => [configOption, overwriteFlag, maxWorkersOption, helpFlag]
  | .index =>
    [configOption, noPullFlag, overwriteFlag, maxWorkersOption, formatOption, outputOption,
      showResourcesFlag, helpFlag]

end Command

def helpLastLine : Text := "  validate  Validate a backends configuration file."

/-! ## 2. Arguments -/

def refuse {α : Type} : ArgumentFault → Session α
  | .usage fault => throw (.usage fault)
  | .path fault => throw (.failure (.path fault))

def accept {α : Type} : Except ArgumentFault α → Session α
  | .ok a => return a
  | .error fault => refuse fault

def splitArguments (specs : List Spec) (mixed : Bool) (arguments : List Text) : Session Split :=
  match split specs mixed arguments with
  | .ok split => return split
  | .error fault => throw (.usage fault)

/-- Answers the first flag that asks for help or for the version, if there is one. -/
def answerFlags (given : List Given) : Session Unit := do
  match given.find? fun g => g.spec = helpFlag || g.spec = versionFlag with
  | none => return
  | some g =>
    if g.spec = versionFlag then
      Session.echo (programName ++ ", version " ++ programVersion)
    throw (.exit 0)

def valuesOf (specs : List Spec) (given : List Given) : Session Values := do
  answerFlags given
  accept (values (← get).world.files specs given)

/-- The values of the program's options, and the arguments behind them. -/
def programArguments (arguments : List Text) : Session (Values × List Text) := do
  if arguments = [] then throw (.usage (.nothing helpLastLine))
  let split ← splitArguments programOptions false arguments
  let values ← valuesOf programOptions split.options
  return (values, split.arguments)

/-- The command of a name. A name that looks like an option is taken for one. -/
def commandOf (arguments : List Text) : Session (Command × List Text) := do
  match arguments with
  | [] => throw (.usage .missingCommand)
  | name :: rest =>
    match Command.all.find? (·.name = name) with
    | some command => return (command, rest)
    | none =>
      -- Faults of the option come before the missing command.
      if looksLikeOption name then do
        let _ ← programArguments arguments
      throw (.usage (.noSuchCommand name (Text.similarTo name (Command.all.map Command.name))))

/-- The values of the options of a command, which takes nothing else. -/
def commandArguments (command : Command) (arguments : List Text) : Session Values := do
  let split ← splitArguments command.options true arguments
  let values ← valuesOf command.options split.options
  if split.arguments ≠ [] then throw (.usage (.extraArguments split.arguments))
  return values

/-! ## 3. Running -/

def runCommand (s : Surroundings) (command : Command) (values : Values) : Session Unit :=
  let path := (values.text? configOption.long).getD []
  let overwrite := values.isSet overwriteFlag.long
  let workers := values.integerOr 1 maxWorkersOption.long
  match command with
  | .validate => validate s path (values.isSet checkCredentialsFlag.long)
  | .pull => pull s path overwrite workers
  | .index =>
    index s
      { path := path
        noPull := values.isSet noPullFlag.long
        overwrite := overwrite
        workers := workers
        asDocument := values.text? formatOption.long = some (Text.ofString "json")
        output := values.text? outputOption.long
        showResources := values.isSet showResourcesFlag.long }

def logLevel (values : Values) : Log.Level :=
  match Log.levelOfName ((values.text? logLevelOption.long).getD "WARNING") with
  | .ok level => level
  | .error _ => Log.info

/-- Sets up logging. From here on log records reach the files of the log, even if the arguments of
the command make no sense. -/
def setUpLogging (s : Surroundings) (values : Values) : Session Unit := fun terminal =>
  let world := terminal.world
  let file := values.text? logFileOption.long
  match Log.configure world.log s.now (logLevel values) file world.files with
  | (result, log, files) =>
    (result.mapError .failure, { terminal with world := { world with files := files, log := log } })

def program (s : Surroundings) (arguments : List Text) : Session Unit := do
  let (values, rest) ← programArguments arguments
  let (command, rest) ← commandOf rest
  setUpLogging s values
  runCommand s command (← commandArguments command rest)

/-- What a run of the program leaves behind: its exit code, what was printed and written to the
standard output, the notice of a usage fault, the failure that nothing reported, and the files. -/
structure Outcome where
  exitCode : Nat
  printed : List Console.Item
  stdout : Text
  notice : Option Text
  failure : Option Failure
  files : FileTree
  deriving DecidableEq

/-- The outcome of how a run ended. An interruption that nothing reported is no failure, but not a
success either. -/
def Outcome.of (result : Except Ending Unit) (terminal : Terminal) : Outcome :=
  let plain : Outcome :=
    ⟨0, terminal.printed, terminal.stdout, none, none, terminal.world.files⟩
  match result with
  | .ok _ => plain
  | .error (.exit code) => { plain with exitCode := code }
  | .error (.usage fault) =>
    { plain with exitCode := Session.usageCode, notice := some fault.notice }
  | .error (.failure (.service .interrupted)) => { plain with exitCode := Session.errorCode }
  | .error (.failure failure) =>
    { plain with exitCode := Session.errorCode, failure := some failure }

def run (s : Surroundings) (files : FileTree) (arguments : List Text) : Outcome :=
  match (program s arguments).run.run ⟨.start files s.now, [], []⟩ with
  | (result, terminal) => Outcome.of result terminal

end StateOwnership.CommandLine
