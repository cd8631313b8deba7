import StateOwnership.FileTree.Basic
import StateOwnership.Text.Digits
import StateOwnership.Text.Lines
import StateOwnership.Text.Quoted
import StateOwnership.Text.Similar

/-!
# Options

A command takes options: flags, and options with a value. Arguments are split into options and what
is left over; then the values are converted, in the order in which their options were first given.
The last value of an option counts.
-/

namespace StateOwnership.CommandLine

inductive Kind where
  | flag
  | text
  /-- The path of something that is there and no directory. -/
  | file
  | integer
  /-- One of some words, in whatever case if so asked. -/
  | choice (words : List Text) (anyCase : Bool)
  deriving DecidableEq, Repr

/-- An option: its long name, its short name if it has one, what its value has to be, and whether
it must be given. -/
structure Spec where
  long : Text
  short : Option Text
  kind : Kind
  required : Bool
  deriving DecidableEq, Repr

namespace Spec

def flag (long : Text) : Spec := ⟨long, none, .flag, false⟩

def takesValue (spec : Spec) : Bool :=
  match spec.kind with
  | .flag => false
  | _ => true

def shown (spec : Spec) : Text :=
  let quoted (name : Text) : Text := "'" ++ name ++ "'"
  match spec.short with
  | none => quoted spec.long
  | some short => quoted spec.long ++ " / " ++ quoted short

end Spec

inductive Value where
  | set
  | text (t : Text)
  | integer (i : Int)
  deriving DecidableEq, Repr

inductive UsageFault where
  | noSuchOption (name : Text) (similar : List Text)
  | noSuchCommand (name : Text) (similar : List Text)
  | missingCommand
  | missingArgument (name : Text)
  | unexpectedValue (name : Text)
  | missingOption (spec : Spec)
  | extraArguments (arguments : List Text)
  | absentFile (spec : Spec) (path : Text)
  | directory (spec : Spec) (path : Text)
  | notInteger (spec : Spec) (value : Text)
  | notChoice (spec : Spec) (value : Text) (words : List Text)
  /-- There are no arguments at all; the last line of the help says what there is. -/
  | nothing (lastLine : Text)
  deriving DecidableEq

namespace UsageFault

def invalidValue (spec : Spec) (reason : Text) : Text :=
  "Invalid value for " ++ spec.shown ++ ": " ++ reason

/-- The words behind a name that stands for nothing: the names that may have been meant. -/
def hint (similar : List Text) : Text :=
  let names := Text.joinWith ", " (similar.map Text.quote)
  match similar with
  | [] => []
  | [_] => " Did you mean " ++ names ++ "?"
  | _ => " (Did you mean one of: " ++ names ++ "?)"

def describe : UsageFault → Text
  | .noSuchOption name similar => "No such option " ++ Text.quote name ++ "." ++ hint similar
  | .noSuchCommand name similar => "No such command " ++ Text.quote name ++ "." ++ hint similar
  | .missingCommand => "Missing command."
  | .missingArgument name => "Option " ++ Text.quote name ++ " requires an argument."
  | .unexpectedValue name => "Option " ++ Text.quote name ++ " does not take a value."
  | .missingOption spec => "Missing option " ++ spec.shown ++ "."
  | .extraArguments [argument] => "Got unexpected extra argument (" ++ argument ++ ")"
  | .extraArguments arguments =>
    "Got unexpected extra arguments (" ++ Text.joinWith " " arguments ++ ")"
  | .absentFile spec path => invalidValue spec ("File " ++ Text.quote path ++ " does not exist.")
  | .directory spec path => invalidValue spec ("File " ++ Text.quote path ++ " is a directory.")
  | .notInteger spec value => invalidValue spec (Text.quote value ++ " is not a valid integer.")
  | .notChoice spec value words =>
    invalidValue spec
      (Text.quote value ++ " is not one of " ++ Text.joinWith ", " (words.map Text.quote) ++ ".")
  | .nothing lastLine => lastLine

/-- What is printed about a usage fault. Control sequences in arguments are left out. -/
def notice : UsageFault → Text
  | .nothing lastLine => lastLine
  | fault => Text.unstyled ("Error: " ++ fault.describe)

end UsageFault

/-! ## 1. Splitting arguments -/

structure Given where
  spec : Spec
  value : Option Text
  deriving DecidableEq, Repr

def dash : CodePoint := 0x2D

def equalsSign : CodePoint := 0x3D

/-- The argument behind which no options are looked for. -/
def endOfOptions : Text := "--"

def looksLikeOption (argument : Text) : Bool :=
  argument.head? = some dash && 1 < argument.length

/-- What stands before the first equals sign, and what stands behind it if there is one. -/
def splitValue (argument : Text) : Text × Option Text :=
  (argument.takeWhile (· != equalsSign), (argument.dropWhile (· != equalsSign)).tail?)

/-- An option and the arguments behind it, the first of which is its value. -/
def takeValue (name : Text) (spec : Spec) : List Text → Except UsageFault (Given × List Text)
  | [] => .error (.missingArgument name)
  | value :: rest => .ok (⟨spec, some value⟩, rest)

/-- The short options of an argument, letter by letter, and the arguments behind them. What follows
the letter of an option with a value is that value. -/
def shortOptions (specs : List Spec) : (letters : Text) → List Text →
    Except UsageFault (List Given × List Text)
  | [], rest => .ok ([], rest)
  | c :: letters, rest =>
    let name : Text := [dash, c]
    match specs.find? (·.short = some name) with
    | none => .error (.noSuchOption name [])
    | some spec =>
      if spec.takesValue then
        (takeValue name spec (if letters = [] then rest else letters :: rest)).map
          fun (given, rest) => ([given], rest)
      else
        (shortOptions specs letters rest).map fun (found, rest) => (⟨spec, none⟩ :: found, rest)

def optionsOf (specs : List Spec) (argument : Text) (rest : List Text) :
    Except UsageFault (List Given × List Text) :=
  let (name, value) := splitValue argument
  match specs.find? (·.long = name) with
  | some spec =>
    if spec.takesValue then
      let behind :=
        match value with
        | none => rest
        | some value => value :: rest
      (takeValue name spec behind).map fun (given, rest) => ([given], rest)
    else
      match value with
      | none => .ok ([⟨spec, none⟩], rest)
      | some _ => .error (.unexpectedValue name)
  | none =>
    -- An argument with one dash may still be a row of short options.
    if argument.take 2 = endOfOptions then
      .error (.noSuchOption name (Text.similarTo name (specs.map (·.long))))
    else shortOptions specs argument.tail rest

structure Split where
  options : List Given
  arguments : List Text
  deriving DecidableEq, Repr

/-- Splits arguments; `fuel` bounds their number. Behind the first argument that is no option
others are looked for only if they may be mixed. -/
def splitFrom (specs : List Spec) (mixed : Bool) : (fuel : Nat) → List Text →
    Except UsageFault Split
  | 0, arguments => .ok ⟨[], arguments⟩
  | _, [] => .ok ⟨[], []⟩
  | fuel + 1, argument :: rest =>
    if argument = endOfOptions then .ok ⟨[], rest⟩
    else if looksLikeOption argument then do
      let (found, behind) ← optionsOf specs argument rest
      let split ← splitFrom specs mixed fuel behind
      return ⟨found ++ split.options, split.arguments⟩
    else if mixed then do
      let split ← splitFrom specs mixed fuel rest
      return ⟨split.options, argument :: split.arguments⟩
    else .ok ⟨[], argument :: rest⟩

def split (specs : List Spec) (mixed : Bool) (arguments : List Text) : Except UsageFault Split :=
  splitFrom specs mixed (arguments.length + 1) arguments

/-! ## 2. Converting values -/

/-- Why a command line is not followed: the arguments make no sense, or one of them names no
place. -/
inductive ArgumentFault where
  | usage (fault : UsageFault)
  | path (fault : Path.Fault)
  deriving DecidableEq

/-- A path of something that is there and no directory. -/
def convertFile (files : FileTree) (spec : Spec) (path : Text) : Except ArgumentFault Value :=
  match Path.check path with
  | .error fault => .error (.path fault)
  | .ok _ =>
    match files.locate path with
    | .error _ => .error (.usage (.absentFile spec path))
    | .ok place =>
      if files.get? place = some .directory then .error (.usage (.directory spec path))
      else .ok (.text path)

/-- The case in which words are compared. -/
def comparable (anyCase : Bool) (word : Text) : Text :=
  if anyCase then word.map CodePoint.toAsciiLower else word

def convertChoice (spec : Spec) (words : List Text) (anyCase : Bool) (value : Text) :
    Except ArgumentFault Value :=
  match words.find? fun word => comparable anyCase word = comparable anyCase value with
  | some word => .ok (.text word)
  | none => .error (.usage (.notChoice spec value (words.map (comparable anyCase))))

def convert (files : FileTree) (spec : Spec) (value : Text) : Except ArgumentFault Value :=
  match spec.kind with
  | .flag => .ok .set
  | .text => .ok (.text value)
  | .file => convertFile files spec value
  | .integer =>
    match Text.readInteger? value with
    | some i => .ok (.integer i)
    | none => .error (.usage (.notInteger spec value))
  | .choice words anyCase => convertChoice spec words anyCase value

/-- The values of options by their long names. -/
abbrev Values := List (Text × Value)

/-- The last value of each option, in the order in which the options were first given. -/
def lastValues (given : List Given) : List (Spec × Text) :=
  given.foldl (fun found g => Entries.put g.spec (g.value.getD []) found) []

def convertAll (files : FileTree) : List (Spec × Text) → Except ArgumentFault Values
  | [] => .ok []
  | (spec, value) :: rest => do
    let converted ← convert files spec value
    let others ← convertAll files rest
    return (spec.long, converted) :: others

/-- The values of the options that were given, if none that is required is missing. -/
def values (files : FileTree) (specs : List Spec) (given : List Given) :
    Except ArgumentFault Values := do
  let found := lastValues given
  let converted ← convertAll files found
  match specs.find? fun spec => spec.required && !(Entries.get? spec found).isSome with
  | some spec => throw (.usage (.missingOption spec))
  | none => return converted

namespace Values

def isSet (values : Values) (name : Text) : Bool :=
  (Entries.get? name values).isSome

def text? (values : Values) (name : Text) : Option Text :=
  match Entries.get? name values with
  | some (.text t) => some t
  | _ => none

def integerOr (values : Values) (standard : Int) (name : Text) : Int :=
  match Entries.get? name values with
  | some (.integer i) => i
  | _ => standard

end Values
end StateOwnership.CommandLine
