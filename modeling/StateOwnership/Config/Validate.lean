import StateOwnership.Config.Basic
import StateOwnership.Config.Fault

/-!
# Validating configurations

A configuration is valid if it has a destination and backends and every backend has a bucket and
keys. **The first defect in this order is reported: destination, then backends, then each backend in
turn.** Validating sets options that are not set; a configuration with a defect is left alone.
-/

namespace StateOwnership.Config

/-- Looks for defects of backends, the first of which has the given position. -/
def checkBackends : (position : Nat) → List Backend → Except Fault Unit
  | _, [] => .ok ()
  | position, backend :: rest =>
    if backend.bucket = [] then .error (.noBucket position)
    else if backend.keys = [] then .error (.noKeys backend.bucket)
    else checkBackends (position + 1) rest

def check (config : Config) : Except Fault Unit :=
  if config.destination = [] then .error .noDestination
  else if config.backends = [] then .error .noBackends
  else checkBackends 0 config.backends

def withOptions (config : Config) : Config :=
  { config with options := some config.effectiveOptions }

/-- The valid configuration that is meant, or the first defect. -/
def validate (config : Config) : Except Fault Config :=
  match check config with
  | .error fault => .error fault
  | .ok _ => .ok config.withOptions

end StateOwnership.Config
