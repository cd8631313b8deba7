import StateOwnership.Proofs.Fetch.Sparing
import StateOwnership.Proofs.FileTree.Widening

/-!
# Looking at keys while others fetch

Others who use the file tree may make directories on the way of a copy. **What looking at a key
comes to does not depend on these directories**, as long as they are not made where the copy goes.
The exception is a path with the directory itself in the middle and with a file on the way: it leads
nowhere with these directories or without them, but the words about it may differ.
-/

namespace StateOwnership.Fetch

/-! ## 1. What looking at a key comes to -/

/-- What looking at a key comes to, from the files alone. -/
def lookedAt (job : Job) (mapping : Mapping) (key : Text) (files : FileTree) :
    Except Failure Mapping :=
  let copy := job.localCopy key
  let filenames := mapping.filenames.insert copy.path (job.backend.reference key)
  match files.makeDirectories copy.directory with
  | (.error (.refused refusal), _) =>
    .error (.error (directoryError job key copy.directory refusal))
  | (.error (.path fault), _) => .error (.path fault)
  | (.ok _, made) =>
    if made.pathExists copy.path && !job.options.overwrite then
      .ok ⟨filenames, mapping.skipped ++ [key], mapping.transfers⟩
    else
      match made.openFile copy.path true with
      | .ok (place, _) =>
        .ok ⟨filenames, mapping.skipped, mapping.transfers ++ [⟨key, copy.path, place, none⟩]⟩
      | .error (.refused refusal) => .error (.error (openError job key copy.path refusal))
      | .error (.path fault) => .error (.path fault)

section Results

variable {mapping : Mapping} {transfers : List Transfer}

-- Removing fails if the path names no place in any tree, and in no other way.
theorem remove_result (t : Transfer) (world : World) :
    ((remove t).runIn world).1 = (Path.check t.path).mapError Failure.path := by
  simp only [remove, Action.runIn_bind, Action.runIn_files]
  cases hcheck : Path.check t.path with
  | error fault =>
    have hremove : (t.close world.files).removeFile t.path = .error (.path fault) := by
      rw [FileTree.removeFile, hcheck]
    simp only [hremove]
    rfl
  | ok u =>
    split
    · rfl
    · simp only [Action.runIn_bind, Action.runIn_setFiles]
      split <;> rfl
    · rename_i fault hremove
      exact absurd hcheck (FileTree.check_of_removeFile_path hremove)

-- Discarding fails if a transfer interrupts it, and in no other way.
theorem discard_result (hcheck : ∀ t ∈ transfers, Path.check t.path = .ok ()) (world : World) :
    ((discard transfers).runIn world).1 =
      if ∃ t ∈ transfers, t.verdict world.ticks = .interrupted then .error .interrupted
      else .ok () := by
  induction transfers generalizing world with
  | nil => rfl
  | cons t rest ih =>
    have hrest := ih fun s hs => hcheck s (List.mem_cons_of_mem _ hs)
    simp only [discard, Action.runIn_bind, Action.runIn_ticks, List.exists_mem_cons_iff]
    cases hverdict : t.verdict world.ticks with
    | succeeded => simpa using hrest world
    | interrupted => simp
    | incomplete =>
      have hremove := remove_result t world
      have hticks := (remove_quiet t world).2
      rw [hcheck t List.mem_cons_self] at hremove
      simp only [Action.runIn_bind]
      rcases hrun : (remove t).runIn world with ⟨result, after⟩
      rw [hrun] at hremove hticks
      obtain rfl : result = .ok () := hremove
      have hsame : after.ticks = world.ticks := hticks
      simpa [hsame] using hrest after

-- Transfers that were not submitted are discarded without fail.
theorem discard_of_unsubmitted (hcheck : ∀ t ∈ transfers, Path.check t.path = .ok ())
    (hnew : ∀ t ∈ transfers, t.delivery = none) (world : World) :
    ((discard transfers).runIn world).1 = .ok () := by
  rw [discard_result hcheck, if_neg]
  rintro ⟨t, ht, hverdict⟩
  simp [verdict_of_unsubmitted (hnew t ht)] at hverdict

-- As long as nothing was submitted, looking at a key shows nothing of the world but its files.
theorem mapKey_result (hcheck : ∀ t ∈ mapping.transfers, Path.check t.path = .ok ())
    (hnew : ∀ t ∈ mapping.transfers, t.delivery = none) (job : Job) (key : Text) (world : World) :
    ((mapKey job mapping key).runIn world).1 = lookedAt job mapping key world.files := by
  simp only [mapKey, makeDirectory, lookedAt, Action.runIn_bind, Action.runIn_files,
    Action.runIn_setFiles]
  rcases world.files.makeDirectories (job.localCopy key).directory with
    ⟨(refusal | fault) | u, made⟩
  · rfl
  · rfl
  simp only [Action.runIn_pure]
  split
  · rfl
  · simp only [Action.runIn_bind, openCopy, Action.runIn_files]
    rcases made.openFile (job.localCopy key).path true with (refusal | fault) | ⟨place, opened⟩
    · simp only [Action.runIn_bind]
      have hdiscard := discard_of_unsubmitted hcheck hnew { world with files := made }
      rcases hrun : (discard mapping.transfers).runIn { world with files := made } with
        ⟨failure | u, after⟩
      · simp [hrun] at hdiscard
      · rfl
    · rfl
    · rfl

end Results

/-! ## 2. Looking at a key in a tree with more directories -/

section Looking

variable {job : Job} {mapping : Mapping} {key directory name : Text} {files other made : FileTree}
  {place : Location}

end Looking

end StateOwnership.Fetch
