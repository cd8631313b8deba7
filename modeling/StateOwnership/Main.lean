import Std.Time.Zoned
import StateOwnership.CommandLine.Program
import StateOwnership.Report.Plain

/-!
# The executable

What is at and below the working directory is read into a file tree, the program runs on it, and
what it changed is written back. No service is reached from here.
-/

namespace StateOwnership

def currentTime : IO DateTime := do
  let now ← Std.Time.PlainDateTime.now
  return {
    year := now.date.year.toNat
    month := now.date.month.val.toNat
    day := now.date.day.val.toNat
    hour := now.time.hour.val.toNat
    minute := now.time.minute.val.toNat
    second := now.time.second.val.toNat
    microsecond := now.time.nanosecond.val.toNat / 1000
    offset := none }

/-! ## 1. Reading and writing files -/

/-- Adds what an entry of a directory at `place` leads to. Links are left out. -/
partial def addEntry (place : Location) (files : FileTree) (entry : IO.FS.DirEntry) :
    IO FileTree := do
  let place := place ++ [Text.ofString entry.fileName]
  match (← entry.path.symlinkMetadata).type with
  | .dir =>
    (← entry.path.readDir).foldlM (addEntry place) (files.set place .directory)
  | .file =>
    return files.set place (.file (← IO.FS.readBinFile entry.path).toList)
  | _ => return files

/-- The working directory and what is below it. -/
def readFiles : IO FileTree := do
  let here ← IO.currentDir
  let place := (Text.splitOn Path.slash (Text.ofString here.toString)).filter (· ≠ [])
  (← here.readDir).foldlM (addEntry place) (FileTree.fresh place)

def systemName (place : Location) : String :=
  Text.toString (Path.slash :: Text.joinWith [Path.slash] place)

/-- Writes what differs between two trees: first directories, then files; then takes away files
that are gone. -/
def writeFiles (old new : FileTree) : IO Unit := do
  let changed := new.entries.filter fun (place, entry) => old.get? place ≠ some entry
  for (place, entry) in changed do
    if entry = .directory then IO.FS.createDirAll (systemName place)
  for (place, entry) in changed do
    if let .file octets := entry then
      IO.FS.writeBinFile (systemName place) (ByteArray.mk octets.toArray)
  for (place, _) in old.entries do
    if new.get? place = none then IO.FS.removeFile (systemName place)

/-! ## 2. Running -/

def storageAddress : Text := "https://s3.amazonaws.com/"

def printOutcome (outcome : CommandLine.Outcome) : IO Unit := do
  for item in outcome.printed do
    for line in item.plainLines do
      IO.println line.toString
  IO.print outcome.stdout.toString
  if let some notice := outcome.notice then IO.eprintln notice.toString
  if let some failure := outcome.failure then IO.eprintln failure.describe.toString

end StateOwnership

open StateOwnership in
def main (arguments : List String) : IO UInt32 := do
  let surroundings : CommandLine.Surroundings := ⟨.offline storageAddress, ← currentTime⟩
  let files ← readFiles
  let outcome := CommandLine.run surroundings files (arguments.map Text.ofString)
  writeFiles files outcome.files
  printOutcome outcome
  return UInt32.ofNat outcome.exitCode
