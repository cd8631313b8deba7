import StateOwnership.Error
import StateOwnership.Cloud.Basic
import StateOwnership.FileTree.Basic
import StateOwnership.Json.Reader

/-!
# Failures

Everything that an operation can end with instead of a result: an error in the library's own words,
or a failure of something below the library that no operation has put into words.
-/

namespace StateOwnership

inductive Failure where
  /-- An error in the library's own words. -/
  | error (error : Error)
  | service (error : ServiceError)
  | refused (refusal : FileTree.Refusal)
  /-- A text that names no place in any file tree. -/
  | path (fault : Path.Fault)
  | document (fault : Json.Fault)
  | numeral (fault : Text.NumeralFault)
  deriving DecidableEq

namespace Failure

def ofFileTree : FileTree.Fault → Failure
  | .refused refusal => .refused refusal
  | .path fault => .path fault

def describe : Failure → Text
  | .error e => e.describe
  | .service e => e.describe
  | .refused refusal => refusal.describe
  | .path fault => fault.describe
  | .document fault => fault.describe
  | .numeral fault => fault.describe

def interrupted : Failure := .service .interrupted

end Failure
end StateOwnership
