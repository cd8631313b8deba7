import StateOwnership.FileTree.Operations
import StateOwnership.Index.Inventory
import StateOwnership.Json.Printer
import StateOwnership.World

/-!
# Reports as documents

A report document holds the counts of an inventory, the number of resources of each owner, the files
that were passed over and the owner of each resource, in the order of the inventory.
-/

namespace StateOwnership.Report

def metadata (inventory : Inventory) : Json :=
  .obj [("resource_count", .int inventory.index.size),
    ("files_loaded", .int inventory.filesLoaded.length),
    ("files_skipped", .int inventory.skippedCount),
    ("collisions", .int inventory.collisions),
    ("load_time", .str inventory.loadTime.standard)]

/-- The number of resources of each owner. -/
def summary (inventory : Inventory) : Json :=
  .obj (inventory.index.owners.entries.map fun (owner, count) => (owner, .int count))

def document (inventory : Inventory) : Json :=
  .obj [("metadata", metadata inventory),
    ("summary_by_state_file", summary inventory),
    ("skipped_files", Json.ofTexts inventory.skipped.entries),
    ("resources", Json.ofTexts inventory.index.entries.entries)]

/-- Where a report goes and how it is indented. -/
structure Settings where
  outputPath : Option Text
  indent : Option Int
  deriving DecidableEq, Repr

namespace Settings

def standardIndent : Option Int := some 2

def describe (settings : Settings) : Text :=
  let path : Text :=
    match settings.outputPath with
    | none => "None"
    | some path => Text.quote path
  let indent : Text :=
    match settings.indent with
    | none => "None"
    | some width => Text.ofInt width
  "JSONReporter(output_path=" ++ path ++ ", indent=" ++ indent ++ ")"

def greeting (settings : Settings) : Text :=
  "Initialized JSONReporter (output_path=" ++ settings.outputPath.getD "None" ++ ")"

/-- The path of the report: the one asked for, or a name that tells the time. -/
def path (settings : Settings) (now : DateTime) : Text :=
  match settings.outputPath with
  | none | some [] => "tfstate_index_" ++ now.compact ++ ".json"
  | some path => Path.tidy path

/-- The text of the report on an inventory. A negative indentation counts as none to the left of
each line. -/
def render (settings : Settings) (inventory : Inventory) : Text :=
  Json.render (settings.indent.map Int.toNat) (document inventory)

end Settings

def writeError (path : Text) (refusal : FileTree.Refusal) : Error :=
  Error.about .general ("Unable to write report to " ++ path ++ ": " ++ refusal.describe)
    ((∅ : OrderedMap Text Json).insert "path" (.str path))

def record (level : Log.Level) (message : Text) : Action Unit :=
  Action.record level Log.documentReportSource message

/-- Writes the report on an inventory to its file and returns the path. -/
def write (settings : Settings) (now : DateTime) (inventory : Inventory) : Action Text := do
  let path := settings.path now
  record Log.info ("Exporting " ++ Text.ofNat inventory.index.size ++ " resources to " ++ path)
  match (← Action.files).openFile path true with
  | .error (.refused refusal) => Action.failWith (writeError path refusal)
  | .error (.path fault) => throw (Failure.path fault)
  | .ok (place, files) =>
    let octets := (settings.render inventory).flatMap Text.utf8Octets
    Action.setFiles (files.overwriteStart place octets)
    record Log.info ("JSON export complete: " ++ path)
    return path

end StateOwnership.Report
