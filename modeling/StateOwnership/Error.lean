import StateOwnership.Json.Literal

/-!
# Errors

An error has a message and named details. What it is about (a field of the configuration, an object
of a bucket, a state file) is kept with it, and everything it names is also among the details.
-/

namespace StateOwnership

inductive Topic where
  | general
  | configuration (field : Option Text)
  | fetch (bucket key : Option Text)
  | decode (path address : Option Text)
  deriving DecidableEq, Repr

structure Error where
  topic : Topic
  message : Text
  details : OrderedMap Text Json
  deriving DecidableEq

namespace Error

/-- Adds what an error names to its details; nothing is added for an absent or empty name. -/
def note (name : Text) (value : Option Text) (details : OrderedMap Text Json) :
    OrderedMap Text Json :=
  match value with
  | some (c :: rest) => details.insert name (.str (c :: rest))
  | _ => details

/-- The details of an error about a topic, on top of those given. -/
def noteTopic : Topic → OrderedMap Text Json → OrderedMap Text Json
  | .general, details => details
  | .configuration field, details => note "field" field details
  | .fetch bucket key, details => note "key" key (note "bucket" bucket details)
  | .decode path address, details => note "address" address (note "path" path details)

def about (topic : Topic) (message : Text) (details : OrderedMap Text Json) : Error :=
  ⟨topic, message, noteTopic topic details⟩

def typeName (e : Error) : Text :=
  match e.topic with
  | .general => "TfStateIndexError"
  | .configuration _ => "ConfigurationError"
  | .fetch .. => "FetchError"
  | .decode .. => "DecodeError"

def bucket? (e : Error) : Option Text :=
  match e.topic with
  | .fetch bucket _ => bucket
  | _ => none

def isFetch (e : Error) : Bool :=
  match e.topic with
  | .fetch .. => true
  | _ => false

/-- The message, with the details behind it if there are any. -/
def describe (e : Error) : Text :=
  if e.details.isEmpty then e.message
  else e.message ++ " (Details: " ++ Json.literal (.obj e.details.entries) ++ ")"

def toJson (e : Error) : Json :=
  .obj [("error_type", .str e.typeName), ("message", .str e.message),
    ("details", .obj e.details.entries)]

end Error
end StateOwnership
