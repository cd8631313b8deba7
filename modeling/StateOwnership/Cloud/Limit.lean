import StateOwnership.Json.Literal

/-!
# Limits

A client may be given limits: how often a call is tried again, and how many seconds it may take.
They are handed to the services as they were given, so a limit can be any value; only the number of
retries is looked at, which has to be comparable with zero and not below it.
-/

namespace StateOwnership

/-- A limit as it was given. -/
abbrev Limit := Json

/-- Why a limit is no number of retries. -/
inductive RetryFault where
  | belowZero (limit : Limit)
  /-- The limit is no number at all. -/
  | incomparable (limit : Limit)
  deriving DecidableEq

def RetryFault.describe : RetryFault → Text
  | .belowZero limit =>
    "Value provided to \"max_attempts\": " ++ limit.inSentence ++
      " must be an integer greater than or equal to 0."
  | .incomparable limit =>
    "'<' not supported between instances of '" ++ limit.kind ++ "' and 'int'"

namespace Limit

def standardRetries : Limit := .int 3

/-- How many seconds a call may take unless something else is asked for. -/
def standardTimeout : Limit := .int 30

/-- A limit, if it is a number of retries. A truth value is a number. -/
def retries (limit : Limit) : Except RetryFault Limit :=
  let checked (below : Bool) : Except RetryFault Limit :=
    if below then .error (.belowZero limit) else .ok limit
  match limit with
  | .int n => checked (n < 0)
  | .float x => checked x.isBelowZero
  | .bool _ => .ok limit
  | _ => .error (.incomparable limit)

end Limit
end StateOwnership
