import StateOwnership.Cache.Load
import StateOwnership.CommandLine.Terminal
import StateOwnership.Report.Document

/-!
# Commands

The three commands: validating a configuration, pulling, and indexing.
-/

namespace StateOwnership.CommandLine

open Markup (escape styled)

/-- What commands need from outside: the answers of the services, and the time. -/
structure Surroundings where
  cloud : Cloud
  now : DateTime

/-- The configuration at a path, valid and with overwriting on if that is asked for. -/
def loadConfig (path : Text) (overwrite : Bool) : Action Config := do
  let config ← Config.load path
  let valid ← config.validated
  if overwrite then
    return { valid with options := some { valid.effectiveOptions with overwrite := true } }
  else return valid

def onCache {α : Type} (step : Cache.Step α) (cache : Cache) : Action (α × Cache) := fun world =>
  match step.runOn cache world with
  | (.ok a, cache, world) => (.ok (a, cache), world)
  | (.error failure, _, world) => (.error failure, world)

/-- The schedule of a cache: all backends start at once and end in order. -/
def scheduleOf (cache : Cache) : Cache.Schedule :=
  .inOrder cache.config.backends.length

/-- A pull that cannot be cancelled. -/
def pullStep (s : Surroundings) (cache : Cache) : Cache.Step (List Fetch.Outcome) :=
  Cache.pull s.cloud .standard none (scheduleOf cache)

def bucketsOf (config : Config) : List Text :=
  config.backends.map (·.bucket)

/-! ## 1. Validating -/

def printConfig (config : Config) : Session Unit := do
  let keys := (config.backends.flatMap (·.keys)).length
  Session.printLine ("\n" ++ styled "green bold" "Configuration is valid!")
  Session.printLine ("\n  Destination: " ++ escape config.destination)
  Session.printLine ("  Backends: " ++ Text.ofNat config.backends.length)
  Session.printLine ("  State files: " ++ Text.ofNat keys)

def printIdentities (s : Surroundings) (config : Config) : Session Unit := do
  let cache := Cache.make config true 1
  let (identities, _) ← Session.reporting (Console.errorLine "Credential check failed:") none
    (Session.ofAction (onCache (Cache.checkCredentials s.cloud .standard) cache))
  Session.printLine ("\n" ++ styled "green bold" "Credentials valid:")
  Session.printAll (identities.entries.map fun (bucket, arn) =>
    .line ("  " ++ escape bucket ++ ": " ++ escape arn))

/-- Validates a configuration file, and the credentials of its backends if that is asked for. -/
def validate (s : Surroundings) (path : Text) (checkCredentials : Bool) : Session Unit := do
  let config ← Session.reporting (Console.errorLine "Invalid configuration:") none
    (Session.ofAction (loadConfig path false))
  printConfig config
  if checkCredentials then printIdentities s config
  Session.printLine []

/-! ## 2. Pulling -/

/-- What the log says about console reports. -/
def greetConsole : Session Unit :=
  Session.record Log.debug Log.consoleReportSource "Initialized CLIReporter"

def pull (s : Surroundings) (path : Text) (overwrite : Bool) (workers : Int) : Session Unit := do
  greetConsole
  Session.reporting Console.error (some "Pull cancelled by user.") do
    let config ← Session.ofAction (loadConfig path overwrite)
    let cache := Cache.make config true workers
    Session.print (Console.header (bucketsOf config))
    let (outcomes, _) ← Session.ofAction (onCache (pullStep s cache) cache)
    Session.print (Console.pullTable outcomes)
    Session.printAll (Console.completion none)

/-! ## 3. Indexing -/

structure IndexRequest where
  path : Text
  noPull : Bool
  overwrite : Bool
  workers : Int
  asDocument : Bool
  output : Option Text
  showResources : Bool
  deriving DecidableEq, Repr

/-- The output file of a request; an empty path is none. -/
def IndexRequest.outputFile (request : IndexRequest) : Option Text :=
  match request.output with
  | some (c :: rest) => some (c :: rest)
  | _ => none

def takeInventory (s : Surroundings) (request : IndexRequest) (config : Config) :
    Session Inventory := do
  let cache := Cache.make config true request.workers
  let cache ←
    if request.noPull then do
      let (_, cache) ← Session.ofAction (onCache Cache.mapConfigured cache)
      pure cache
    else do
      let (_, cache) ← Session.ofAction (onCache (pullStep s cache) cache)
      pure cache
  Session.ofAction (cache.load s.now)

/-- Notes new report settings in the log. -/
def greetDocument (settings : Report.Settings) : Session Unit :=
  Session.record Log.debug Log.documentReportSource settings.greeting

def writeReport (s : Surroundings) (request : IndexRequest) (inventory : Inventory) :
    Session (Option Text) := do
  match request.outputFile with
  | none => return none
  | some path =>
    let settings : Report.Settings := ⟨some path, Report.Settings.standardIndent⟩
    greetDocument settings
    return some (← Session.ofAction (Report.write settings s.now inventory))

def index (s : Surroundings) (request : IndexRequest) : Session Unit := do
  greetConsole
  Session.reporting Console.error (some "Indexing cancelled by user.") do
    let config ← Session.ofAction (loadConfig request.path request.overwrite)
    let inventory ← takeInventory s request config
    if request.asDocument && request.outputFile.isNone then do
      let settings : Report.Settings := ⟨none, Report.Settings.standardIndent⟩
      greetDocument settings
      Session.echo (settings.render inventory)
    else do
      let outputFile ← writeReport s request inventory
      Session.print (Console.header (bucketsOf config))
      Session.printAll (Console.inventory request.showResources inventory)
      Session.printAll (Console.completion outputFile)

end StateOwnership.CommandLine
