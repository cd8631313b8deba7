import StateOwnership.Config.Basic
import StateOwnership.Config.Fault

/-!
# Configurations as documents

A field that is absent or blank (null, false, zero, empty) takes its default, except where null is
refused. Options that are null are not set; absent ones are the standard ones. What is written is
read back.
-/

namespace StateOwnership

namespace Config

def memberOr (absent : Json) (name : Text) (members : List (Text × Json)) : Json :=
  (Entries.get? name members).getD absent

/-- The value of a member, or a default if there is none or it is blank. -/
def memberUnlessBlank (blank : Json) (name : Text) (members : List (Text × Json)) : Json :=
  match Entries.get? name members with
  | none => blank
  | some value => if value.isBlank then blank else value

def expectObject (field : Text) : Json → Except Fault (List (Text × Json))
  | .obj members => .ok members
  | value => .error (.mistyped field .object value)

def expectList (field : Text) : Json → Except Fault (List Json)
  | .arr items => .ok items
  | value => .error (.mistyped field .list value)

def expectText (field : Text) : Json → Except Fault Text
  | .str t => .ok t
  | value => .error (.mistyped field .text value)

def expectFlag (field : Text) : Json → Except Fault Bool
  | .bool b => .ok b
  | value => .error (.mistyped field .flag value)

def expectTexts (field : Text) (value : Json) : Except Fault (List Text) := do
  let items ← expectList field value
  items.mapM (expectText field)

end Config

open Config in
def Substitution.ofJson (value : Json) : Except Config.Fault Substitution := do
  let members ← expectObject "options.path_substitutions" value
  let old ← expectText "options.path_substitutions.old" (memberOr (.str []) "old" members)
  let new ← expectText "options.path_substitutions.new" (memberOr (.str []) "new" members)
  return ⟨old, new⟩

def Substitution.toJson (s : Substitution) : Json :=
  .obj [("old", .str s.old), ("new", .str s.new)]

open Config in
def FetchOptions.ofJson (value : Json) : Except Config.Fault FetchOptions := do
  let members ← expectObject "options" value
  let listed ← expectList "options.path_substitutions"
    (memberUnlessBlank (.arr []) "path_substitutions" members)
  let substitutions ← listed.mapM Substitution.ofJson
  -- Null is refused here, unlike for the lists.
  let overwrite ← expectFlag "options.overwrite" (memberOr (.bool false) "overwrite" members)
  let arnlessTypes ← expectTexts "options.arnless_resource_types"
    (memberUnlessBlank (.arr []) "arnless_resource_types" members)
  return ⟨substitutions, overwrite, arnlessTypes⟩

def FetchOptions.toJson (options : FetchOptions) : Json :=
  .obj [("path_substitutions", .arr (options.substitutions.map Substitution.toJson)),
    ("overwrite", .bool options.overwrite),
    ("arnless_resource_types", Json.ofTextList options.arnlessTypes)]

open Config in
def Backend.ofJson (value : Json) : Except Config.Fault Backend := do
  let members ← expectObject "s3" value
  let bucket ← expectText "s3.bucket" (memberOr (.str []) "bucket" members)
  let keys ← expectTexts "s3.keys" (memberUnlessBlank (.arr []) "keys" members)
  let region ← expectText "s3.region" (memberUnlessBlank (.str []) "region" members)
  let roleArn ← expectText "s3.role_arn" (memberUnlessBlank (.str []) "role_arn" members)
  let externalId ← expectText "s3.external_id" (memberUnlessBlank (.str []) "external_id" members)
  let sessionName ← expectText "s3.session_name"
    (memberUnlessBlank (.str []) "session_name" members)
  return ⟨bucket, keys, region, roleArn, externalId, sessionName⟩

def Backend.toJson (backend : Backend) : Json :=
  .obj [("bucket", .str backend.bucket), ("keys", Json.ofTextList backend.keys),
    ("region", .str backend.region), ("role_arn", .str backend.roleArn),
    ("external_id", .str backend.externalId), ("session_name", .str backend.sessionName)]

namespace Config

def optionsOf (members : List (Text × Json)) : Except Fault (Option FetchOptions) :=
  match memberOr FetchOptions.standard.toJson "options" members with
  | .null => .ok none
  | value => (FetchOptions.ofJson value).map some

def ofJson (value : Json) : Except Fault Config := do
  let members ← expectObject "<root>" value
  let options ← optionsOf members
  let listed ← expectList "s3" (memberUnlessBlank (.arr []) "s3" members)
  let destination ← expectText "destination" (memberUnlessBlank (.str []) "destination" members)
  let backends ← listed.mapM Backend.ofJson
  return ⟨destination, options, backends⟩

def toJson (config : Config) : Json :=
  .obj [("destination", .str config.destination),
    ("options", match config.options with
      | none => .null
      | some options => options.toJson),
    ("s3", .arr (config.backends.map Backend.toJson))]

end Config
end StateOwnership
