import StateOwnership.Json.Literal
import StateOwnership.Log.Record

/-!
# Log levels

A level is asked for by name, in whatever case, or by number. An unknown name stands for the level
of progress messages.
-/

namespace StateOwnership

/-- The upper-case form of a code point as far as it can be part of a level name: the ASCII
letters, two letters outside ASCII whose upper-case form is an ASCII letter, and the two ligatures
whose upper-case form is a pair of them. -/
def CodePoint.toLevelCase (c : CodePoint) : Text :=
  if 0x61 ≤ c.val && c.val ≤ 0x7A then [Fin.ofNat 0x110000 (c.val - 0x20)]
  else if c = 0x131 then "I"
  else if c = 0x17F then "S"
  else if c = 0xFB05 || c = 0xFB06 then "ST"
  else [c]

namespace Log

inductive Meaning where
  | level (level : Level)
  /-- The name of the standard line layout, which is taken for a level and is none. -/
  | layout
  /-- The name of the table of line layouts, which is taken for a level and is none. -/
  | layouts
  deriving DecidableEq, Repr

def meanings : List (Text × Meaning) :=
  [("CRITICAL", .level critical), ("FATAL", .level critical), ("ERROR", .level error),
    ("WARNING", .level warning), ("WARN", .level warning), ("INFO", .level info),
    ("DEBUG", .level debug), ("NOTSET", .level everything), ("BASIC_FORMAT", .layout),
    ("_STYLES", .layouts)]

def standardLayout : Text := "%(levelname)s:%(name)s:%(message)s"

/-- One entry of the table of line layouts: a mark, the name of its style, and its layout. -/
def layoutEntry (mark style layout : Text) : Text :=
  Text.quote mark ++ ": (<class 'logging." ++ style ++ "'>, " ++ Text.quote layout ++ ")"

def layoutTable : Text :=
  "\x7b" ++ Text.joinWith ", "
    [layoutEntry "%" "PercentStyle" standardLayout,
      layoutEntry "\x7b" "StrFormatStyle"
        "\x7blevelname\x7d:\x7bname\x7d:\x7bmessage\x7d",
      layoutEntry "$" "StringTemplateStyle"
        "$\x7blevelname\x7d:$\x7bname\x7d:$\x7bmessage\x7d"] ++ "\x7d"

inductive LevelFault where
  | unknown (t : Text)
  /-- The value, which is shown, is neither a number nor a name. -/
  | mistyped (shown : Text)
  /-- A record is to be written at a level that is no number. -/
  | notNumber
  deriving DecidableEq

def LevelFault.describe : LevelFault → Text
  | .unknown t => "Unknown level: " ++ Text.quote t
  | .mistyped shown => "Level not an integer or a valid string: " ++ shown
  | .notNumber => "level must be an integer"

def levelOfName (name : Text) : Except LevelFault Level :=
  match Entries.get? (name.flatMap CodePoint.toLevelCase) meanings with
  | none => .ok info
  | some (.level level) => .ok level
  | some .layout => .error (.unknown standardLayout)
  | some .layouts => .error (.mistyped layoutTable)

/-- The level that a value is, if it is a number or a truth value. -/
def levelOfNumber? : Json → Option Level
  | .int i => some (.number i)
  | .bool b => some (.truth b)
  | _ => none

def levelOf (value : Json) : Except LevelFault Level :=
  match value, levelOfNumber? value with
  | .str name, _ => levelOfName name
  | _, some level => .ok level
  | value, none => .error (.mistyped value.literal)

/-- The level of a record, which has to be a number. -/
def recordLevelOf (value : Json) : Except LevelFault Level :=
  match levelOfNumber? value with
  | some level => .ok level
  | none => .error .notNumber

/-- The numbers that have names of their own. -/
def levelNames : List (Int × Text) :=
  [(50, "CRITICAL"), (40, "ERROR"), (30, "WARNING"), (20, "INFO"), (10, "DEBUG"), (0, "NOTSET")]

def Level.shown : Level → Text
  | .number n => Text.ofInt n
  | .truth b => Json.literal (.bool b)

def levelName (level : Level) : Text :=
  match Entries.get? level.rank levelNames with
  | some name => name
  | none => "Level " ++ level.shown

end Log
end StateOwnership
