import StateOwnership.Log.Setup

/-!
# Sources of records

Whoever has something to say names its source: a word, or words with dots between them. A source
lies within the sources that its beginnings name, as far as these have been named too. **The level
in force at a source is that of the nearest source around it that has one of its own**: a library
that talks much has, and the log as a whole has.

Whether a source may write at a level is decided once, and the decision stands until logging is set
up again, even if a source in between is named later.
-/

namespace StateOwnership.Log

def libraries : List Text := ["boto3", "botocore", "urllib3", "s3transfer"]

def dot : CodePoint := 0x2E

/-- The position of the last dot in a text, if that is not its first code point. -/
def lastDot? (t : Text) : Option Nat :=
  let before := t.reverse.dropWhile (· != dot)
  if before.length ≤ 1 then none else some (before.length - 1)

/-- The names that the source named by the first `limit` code points of `name` can lie within,
nearest first; `fuel` bounds their number. A dot right before another one does not count. -/
def enclosing (name : Text) : (fuel limit : Nat) → List Text
  | 0, _ => []
  | fuel + 1, limit =>
    match lastDot? (name.take limit) with
    | none => []
    | some position => name.take position :: enclosing name fuel (position - 1)

/-- A setup, the sources that have been named, and what has been decided about them. -/
structure Register where
  setup : Setup
  sources : List Text
  decisions : List ((Text × Int) × Bool)
  deriving DecidableEq, Repr

namespace Register

/-- Before anything is set up the libraries are the sources that have been named. -/
def initial : Register := ⟨.initial, libraries, []⟩

/-- Takes notice of a source. -/
def name (register : Register) (source : Text) : Register :=
  if source = rootSource || register.sources.contains source then register
  else { register with sources := register.sources ++ [source] }

/-- The nearest source that a source lies within, if that is not the whole program. -/
def around? (register : Register) (source : Text) : Option Text :=
  (enclosing source source.length source.length).find? register.sources.contains

/-- The level in force at a source; `fuel` bounds how many sources it lies within. -/
def levelAt (register : Register) : (fuel : Nat) → (source : Text) → Level
  | 0, _ => register.setup.level
  | fuel + 1, source =>
    if libraries.contains source && register.setup.libraryLevel.rank ≠ 0 then
      register.setup.libraryLevel
    else
      match register.around? source with
      | none => register.setup.level
      | some outer => register.levelAt fuel outer

/-- Decides whether a source may write at a level, unless that is decided already. -/
def decide (register : Register) (source : Text) (level : Level) : Bool × Register :=
  match Entries.get? (source, level.rank) register.decisions with
  | some decision => (decision, register)
  | none =>
    let decision := (register.levelAt (source.length + 1) source).lets level
    (decision,
      { register with decisions := register.decisions ++ [((source, level.rank), decision)] })

def write (register : Register) (now : DateTime) (files : FileTree) (record : Record) :
    Register × FileTree :=
  match (register.name record.source).decide record.source record.level with
  | (true, register) => (register, register.setup.deliver now files record)
  | (false, register) => (register, files)

/-- Sets up logging anew, which forgets what was decided. -/
def configure (register : Register) (now : DateTime) (level : Level) (path : Option Text)
    (files : FileTree) : Except Failure Unit × Register × FileTree :=
  match Log.configure register.setup now level path files with
  | (result, setup, files) => (result, ⟨setup, register.sources, []⟩, files)

end Register
end StateOwnership.Log
