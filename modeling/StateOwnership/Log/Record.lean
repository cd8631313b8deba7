import StateOwnership.Text.Basic

/-!
# Log records

What the operations report about themselves while they run: a level, the part of the program that
speaks, and a message.
-/

namespace StateOwnership.Log

/-- How urgent a record is. A truth value stands for one or zero, and is shown as it was given. -/
inductive Level where
  | number (n : Int)
  | truth (b : Bool)
  deriving DecidableEq, Repr

/-- The number that a level stands for; higher is more urgent. -/
def Level.rank : Level → Int
  | .number n => n
  | .truth true => 1
  | .truth false => 0

/-- Whether a level in force lets a level through. Levels up to zero do not pass. -/
def Level.lets (inForce level : Level) : Bool :=
  0 < level.rank && inForce.rank ≤ level.rank

/-- The level that lets everything through that can pass. -/
def everything : Level := .number 0

def debug : Level := .number 10

def info : Level := .number 20

def warning : Level := .number 30

def error : Level := .number 40

def critical : Level := .number 50

structure Record where
  level : Level
  source : Text
  message : Text
  deriving DecidableEq, Repr

def configSource : Text := "tfstate_index.core.config"

def clientSource : Text := "tfstate_index.core.aws_client"

def fetchSource : Text := "tfstate_index.backends.s3_fetcher"

def registrySource : Text := "tfstate_index.backends.registry"

def stateSource : Text := "tfstate_index.state.decoder"

def indexSource : Text := "tfstate_index.state.index"

def documentReportSource : Text := "tfstate_index.reporters.json_reporter"

def consoleReportSource : Text := "tfstate_index.reporters.cli_reporter"

/-- The source that stands for the whole program. -/
def rootSource : Text := "root"

end StateOwnership.Log
