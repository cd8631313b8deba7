import StateOwnership.Proofs.Fetch.Wholeness
import StateOwnership.Proofs.OrderedMap

/-!
# Fetches that pass over everything

A path that leads to a copy leads through directories that are there, so nothing need be made on the
way to it. **A fetch that does not overwrite, in a tree where the paths of its copies lead to them,
says so in the log and does nothing else**, whatever the services would answer.
-/

namespace StateOwnership.Fetch

/-- What a fetch says about a key whose copy is there. -/
def Job.passingKey (job : Job) (key : Text) : Log.Record :=
  ⟨Log.debug, Log.fetchSource,
    job.localPath key ++ " already exists, skipping " ++ objectName job.backend.bucket key⟩

/-- What a fetch says that passes over all its keys. -/
def Job.passing (job : Job) : List Log.Record :=
  job.backend.keys.map job.passingKey ++
    [⟨Log.debug, Log.fetchSource, "Fetched " ++ job.backend.bucket ++ ": " ++ Text.ofNat 0 ++
      " downloaded, " ++ Text.ofNat job.backend.keys.length ++ " skipped"⟩]

/-- The outcome of a fetch that passes over all its keys. -/
def Job.passedOver (job : Job) : Outcome :=
  ⟨job.backend.bucket, job.filenames, [], job.backend.keys⟩

section Passing

variable {cloud : Cloud} {factory : Factory} {cancelAt : Option Nat} {job other : Job} {key : Text}
  {keys : List Text} {mapping : Mapping} {world after : World}

-- Where a copy is reached its directory is there.
theorem Job.Reached.makeDirectories (h : job.Reached world.files) (hroot : world.files.Rooted)
    (hkey : key ∈ job.backend.keys) :
    world.files.makeDirectories (job.localCopy key).directory = (.ok (), world.files) := by
  obtain ⟨hdirectory, hcheck, hlocate⟩ := h key hkey
  exact FileTree.makeDirectories_of_isDirectory hroot hdirectory
    (FileTree.isDirectory_of_locate hroot hdirectory (Path.fileName_no_slash _) hcheck hlocate)

-- What is said to the log and to the services does not change where paths lead.
theorem Job.Reached.alike (h : job.Reached world.files) (halike : World.Alike world after) :
    job.Reached after.files := by
  intro key hkey
  obtain ⟨hdirectory, hcheck, hlocate⟩ := h key hkey
  rw [halike.kept.start_eq]
  exact ⟨hdirectory, hcheck, halike.kept.locate hlocate⟩

-- Whether copies are reached depends on the keys and on where their copies go.
theorem Job.Reached.congr {files : FileTree} (h : job.Reached files)
    (hkeys : other.backend.keys = job.backend.keys)
    (hcopies : ∀ key, other.localCopy key = job.localCopy key) : other.Reached files := by
  intro key hkey
  have hpath : other.localPath key = job.localPath key := congrArg LocalCopy.path (hcopies key)
  rw [hcopies, Job.place, hpath]
  exact h key (hkeys ▸ hkey)

theorem mapKey_of_reached (h : job.Reached world.files) (hroot : world.files.Rooted)
    (hkeep : job.options.overwrite = false) (hkey : key ∈ job.backend.keys) (mapping : Mapping) :
    (mapKey job mapping key).runIn world =
      (.ok ⟨mapping.filenames.insert (job.localPath key) (job.backend.reference key),
        mapping.skipped ++ [key], mapping.transfers⟩, world.record (job.passingKey key)) := by
  obtain ⟨-, hcheck, hlocate⟩ := h key hkey
  have hthere : (world.files.pathExists (job.localCopy key).path && !job.options.overwrite) =
      true := by
    have hexists : world.files.pathExists (job.localCopy key).path = true :=
      FileTree.pathExists_of_locate hcheck hlocate
    simp [hexists, hkeep]
  simp only [mapKey, makeDirectory, Action.runIn_bind, Action.runIn_files, Action.runIn_setFiles,
    h.makeDirectories hroot hkey, Action.runIn_pure, if_pos hthere, Action.runIn_record]
  rfl

-- Each key is passed over, and a line in the log does not change where the later paths lead.
theorem mapKeys_of_reached (h : job.Reached world.files) (hroot : world.files.Rooted)
    (hkeep : job.options.overwrite = false) (hkeys : keys ⊆ job.backend.keys) (mapping : Mapping) :
    (mapKeys job mapping keys).runIn world =
      (.ok ⟨mapping.filenames.insertAll (keys.map fun key =>
          (job.localPath key, job.backend.reference key)),
        mapping.skipped ++ keys, mapping.transfers⟩,
        world.recordAll (keys.map job.passingKey)) := by
  induction keys generalizing mapping world with
  | nil => simp [mapKeys, OrderedMap.insertAll, World.recordAll]
  | cons key rest ih =>
    have halike := World.Alike.record world (job.passingKey key)
    have hfirst := mapKey_of_reached h hroot hkeep (hkeys List.mem_cons_self) mapping
    have hrest := ih (h.alike halike) (halike.kept.rooted hroot)
      (fun other hother => hkeys (List.mem_cons_of_mem _ hother))
      ⟨mapping.filenames.insert (job.localPath key) (job.backend.reference key),
        mapping.skipped ++ [key], mapping.transfers⟩
    rw [mapKeys, Action.runIn_bind, hfirst]
    simp only [hrest, List.map_cons, OrderedMap.insertAll_cons, List.append_assoc,
      List.singleton_append]
    rfl

/-- **A fetch whose copies are all reached passes over them**, and only the log hears of it. -/
theorem fetch_of_reached (h : job.Reached world.files) (hroot : world.files.Rooted)
    (hkeep : job.options.overwrite = false) :
    (fetch cloud factory cancelAt job).runIn world =
      (.ok job.passedOver, world.recordAll job.passing) := by
  have hkeys := mapKeys_of_reached h hroot hkeep (List.Subset.refl _) .empty
  rw [fetch, Action.runIn_bind, hkeys]
  simp only [Mapping.empty, ne_eq, not_true_eq_false, if_false, List.nil_append, List.map_nil,
    List.length_nil, Action.runIn_bind, Action.runIn_record, Action.runIn_pure]
  rw [Job.passing, World.recordAll_append]
  rfl

-- The outcome of a fetch bears the name of its bucket.
theorem fetch_bucket {outcome : Outcome}
    (h : (fetch cloud factory cancelAt job).runIn world = (.ok outcome, after)) :
    outcome.bucket = job.backend.bucket := by
  simp only [fetch] at h
  obtain ⟨mapping, between, -, h⟩ := Action.bind_ok.mp h
  split at h
  · simp only [Action.runIn_bind, Action.runIn_record, Action.runIn_pure] at h
    split at h
    · simp only [Prod.mk.injEq, Except.ok.injEq] at h
      rw [← h.1]
    · simp at h
  · simp only [Action.runIn_bind, Action.runIn_record, Action.runIn_pure, Prod.mk.injEq,
      Except.ok.injEq] at h
    rw [← h.1]

end Passing
end StateOwnership.Fetch
