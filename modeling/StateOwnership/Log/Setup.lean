import StateOwnership.DateTime
import StateOwnership.Failure
import StateOwnership.FileTree.Operations
import StateOwnership.Log.Level
import StateOwnership.Text.Utf8

/-!
# Logging

The log has a level and handlers with levels of their own. A record that the level in force lets
through reaches every handler whose level is not above that of the record. A handler may write to a
file, one line a record, always at the end of what the file then holds.
-/

namespace StateOwnership

/-- The path of a file from the root, without components that stand for directories themselves or
for parents. -/
def Path.absolute (start : Location) (p : Text) : Location :=
  let names := (components p).filter (· ≠ here)
  cancelParents true (if isAbsolute p then names else start ++ names)

namespace Log

inductive Target where
  | nowhere
  | console
  | file (place : Location)
  deriving DecidableEq, Repr

/-- A target and the least level of the records that go there. -/
structure Handler where
  target : Target
  level : Level
  deriving DecidableEq, Repr

structure Setup where
  level : Level
  handlers : List Handler
  /-- The level of the libraries that talk much; one of rank zero stands for that of the log. -/
  libraryLevel : Level
  deriving DecidableEq, Repr

def Setup.initial : Setup := ⟨warning, [⟨.nowhere, everything⟩], everything⟩

/-! ## 1. Records -/

def levelWidth : Nat := 8

/-- The source that a name stands for; the empty name stands for the whole program. -/
def sourceOf (name : Text) : Text :=
  if name = [] then rootSource else name

def line (now : DateTime) (record : Record) : Text :=
  let name := levelName record.level
  now.readable ++ " | " ++ name ++ Text.spaces (levelWidth - name.length) ++ " | " ++
    record.source ++ " | " ++ record.message ++ "\n"

/-- Writes a record to the file of a handler. A line that has no UTF-8 form is not written, and a
file that was removed receives nothing. -/
def Handler.write (now : DateTime) (record : Record) (files : FileTree) (handler : Handler) :
    FileTree :=
  match handler.target with
  | .file place =>
    if record.level.rank < handler.level.rank then files
    else
      match Text.encodeUtf8 (line now record) with
      | .ok octets => files.append place octets
      | .error _ => files
  | _ => files

/-- Writes a record that is let through to the files that it reaches. -/
def Setup.deliver (setup : Setup) (now : DateTime) (files : FileTree) (record : Record) :
    FileTree :=
  setup.handlers.foldl (Handler.write now record) files

/-- Writes a record of the program itself. No part of it belongs to a library, so the level in force
is that of the log. -/
def Setup.write (setup : Setup) (now : DateTime) (files : FileTree) (record : Record) : FileTree :=
  if setup.level.lets record.level then setup.deliver now files record else files

/-- Before anything is set up no record reaches a file. -/
theorem Setup.write_initial (now : DateTime) (files : FileTree) (record : Record) :
    Setup.initial.write now files record = files := by
  unfold Setup.write
  split <;> rfl

/-! ## 2. Setting up -/

/-- Opens a log file at its end; a new one is empty. -/
def openFile (files : FileTree) (path : Text) : Except FileTree.Fault (Location × FileTree) :=
  let root := if Path.isAbsolute path then Path.root path else [Path.slash]
  files.openFile (root ++ Text.joinWith [Path.slash] (Path.absolute files.start path)) false

/-- The handlers and the file tree after a log file is asked for; an empty path asks for none. -/
def fileHandler (level : Level) (path : Option Text) (files : FileTree) :
    Except FileTree.Fault (List Handler × FileTree) :=
  match path with
  | none | some [] => .ok ([], files)
  | some path =>
    match openFile files path with
    | .error fault => .error fault
    | .ok (place, files) => .ok ([⟨.file place, level⟩], files)

def greeting (level : Level) (path : Option Text) : Record :=
  let file : Text :=
    match path with
    | none | some [] => "None"
    | some path => path
  ⟨debug, rootSource, "Logging configured: level=" ++ levelName level ++ ", file=" ++ file⟩

/-- Sets up logging at a level, on the console and in a file if one is asked for. Without the file
only the console is set up, and the libraries are left alone. -/
def configure (setup : Setup) (now : DateTime) (level : Level) (path : Option Text)
    (files : FileTree) : Except Failure Unit × Setup × FileTree :=
  let console : Handler := ⟨.console, level⟩
  match fileHandler level path files with
  | .error fault =>
    (.error (Failure.ofFileTree fault), ⟨level, [console], setup.libraryLevel⟩, files)
  | .ok (more, files) =>
    let after : Setup := ⟨level, console :: more, warning⟩
    (.ok (), after, after.write now files (greeting level path))

end Log
end StateOwnership
