import StateOwnership.CommandLine.Options
import StateOwnership.Report.Console
import StateOwnership.World

/-!
# Terminals

A command runs at a terminal: it prints items, writes text to the standard output, and acts on the
world. It ends by coming to its end or in one of the ways listed here.
-/

namespace StateOwnership.CommandLine

/-- The world, what was printed, and what was written to the standard output. -/
structure Terminal where
  world : World
  printed : List Console.Item
  stdout : Text
  deriving DecidableEq

inductive Ending where
  | exit (code : Nat)
  | usage (fault : UsageFault)
  | failure (failure : Failure)
  deriving DecidableEq

/-- A computation at a terminal. -/
abbrev Session (α : Type) := ExceptT Ending (StateM Terminal) α

namespace Session

def ofAction {α : Type} (action : Action α) : Session α := fun terminal =>
  match action.runIn terminal.world with
  | (.ok a, world) => (.ok a, { terminal with world := world })
  | (.error failure, world) => (.error (.failure failure), { terminal with world := world })

def print (item : Console.Item) : Session Unit :=
  modify fun terminal => { terminal with printed := terminal.printed ++ [item] }

def printAll (items : List Console.Item) : Session Unit :=
  modify fun terminal => { terminal with printed := terminal.printed ++ items }

def printLine (markup : Text) : Session Unit :=
  print (.line markup)

def echo (t : Text) : Session Unit :=
  modify fun terminal => { terminal with stdout := terminal.stdout ++ t ++ "\n" }

def record (level : Log.Level) (source message : Text) : Session Unit :=
  ofAction (Action.record level source message)

def errorCode : Nat := 1

def usageCode : Nat := 2

def interruptionCode : Nat := 130

/-- Runs a session and reports an error, and an interruption if there are words for it. -/
def reporting {α : Type} (report : Text → Console.Item) (interruption : Option Text)
    (session : Session α) : Session α :=
  tryCatch session fun ending =>
    match ending, interruption with
    | .failure (.error e), _ => do
      print (report e.describe)
      throw (.exit errorCode)
    | .failure (.service .interrupted), some words => do
      printLine ("\n" ++ Markup.styled "yellow" words)
      throw (.exit interruptionCode)
    | ending, _ => throw ending

end Session
end StateOwnership.CommandLine
