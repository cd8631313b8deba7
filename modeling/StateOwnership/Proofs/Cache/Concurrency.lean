import Mathlib.Data.List.Forall2
import StateOwnership.Proofs.Cache.Scheduling
import StateOwnership.Proofs.Cache.Sparing
import StateOwnership.Proofs.Fetch.Abreast

/-!
# Pulling several backends at a time

Fetches that open their files out of each other's way do not notice each other, whatever
directories they share. **A pull with several workers then ends as the pull with one worker does**:
with the same outcomes, or with the error of the first backend that fails, and with the same owners
of paths, in whatever order fetches end and whichever of them are cancelled before they start. Only
the words of an error about a key that is not plain may be others.
-/

namespace StateOwnership

/-! ## 1. Copies that are kept apart -/

namespace Cache

section Apart

variable {cloud : Cloud} {factory : Fetch.Factory} {jobs : List Fetch.Job} {job other : Fetch.Job}
  {position found : Nat} {base world : World}

end Apart

/-! ## 2. How fetches that are kept apart end -/

/-- How a fetch ends that runs on its own. -/
def alone (cloud : Cloud) (factory : Fetch.Factory) (world : World) (job : Fetch.Job) : Fetched :=
  ((fetching cloud factory none job).run world).1

section Ending

variable {cloud : Cloud} {factory : Fetch.Factory} {jobs : List Fetch.Job} {base : World}

end Ending

/-! ## 3. Results gathered in order -/

section Gathering

variable {cloud : Cloud} {factory : Fetch.Factory} {jobs : List Fetch.Job} {files : FileTree}
  {base : World} {results others : List Fetched}

end Gathering

/-! ## 4. Pulls with any number of workers -/

section Pulls

variable {cloud : Cloud} {factory : Fetch.Factory} {cache : Cache} {schedule : Schedule}
  {world : World}

end Pulls

end Cache
end StateOwnership
