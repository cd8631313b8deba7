import StateOwnership.Log.Setup

/-!
# Worlds and actions

An action runs in a world and leaves one behind, whether it succeeds or fails. A world holds the
file tree, what was asked of the services, the log with the clock that its lines show, and the
number of waits so far.

A log record is written at once: if the log goes to a file, later steps of the same action find its
line there.
-/

namespace StateOwnership

/-- What actions read and change. -/
structure World where
  files : FileTree
  calls : List Call
  log : Log.Setup
  now : DateTime
  ticks : Nat
  deriving DecidableEq

namespace World

/-- The world in which nothing has happened yet and logging is not set up. -/
def start (files : FileTree) (now : DateTime) : World :=
  ⟨files, [], .initial, now, 0⟩

def record (world : World) (r : Log.Record) : World :=
  { world with files := world.log.write world.now world.files r }

def recordAll (world : World) (records : List Log.Record) : World :=
  records.foldl World.record world

def call (world : World) (c : Call) : World :=
  { world with calls := world.calls ++ [c] }

end World

/-- A computation that changes the world and may fail. -/
abbrev Action (α : Type) := ExceptT Failure (StateM World) α

namespace Action

def runIn {α : Type} (action : Action α) (world : World) : Except Failure α × World :=
  action.run.run world

/-- The failure or the result of an action, as a result. -/
def outcome {α : Type} (action : Action α) : StateM World (Except Failure α) :=
  action.run

def failWith {α : Type} (e : Error) : Action α :=
  throw (.error e)

def record (level : Log.Level) (source message : Text) : Action Unit :=
  modify fun world => world.record ⟨level, source, message⟩

def call (c : Call) : Action Unit :=
  modify fun world => world.call c

def files : Action FileTree :=
  return (← get).files

/-- The number of waits so far. -/
def ticks : Action Nat :=
  return (← get).ticks

def setFiles (files : FileTree) : Action Unit :=
  modify fun world => { world with files := files }

def changeFiles (change : FileTree → FileTree) : Action Unit :=
  modify fun world => { world with files := change world.files }

/-- Runs an action and then changes the file tree, whether the action succeeds or fails. -/
def andFinally {α : Type} (action : Action α) (change : FileTree → FileTree) : Action α :=
  fun world =>
    match action.runIn world with
    | (result, world) => (result, { world with files := change world.files })

/-- Runs an action; if it fails, runs a second one and fails likewise, unless the second one
fails on its own. -/
def onFailure {α : Type} (action : Action α) (after : Action Unit) : Action α :=
  tryCatch action fun failure => do
    after
    throw failure

end Action
end StateOwnership
