import Mathlib.Data.List.TakeWhile
import StateOwnership.Proofs.Fetch.Batch

/-!
# What a failed fetch leaves behind

A fetch can fail at any key, on the way to the service and anywhere in its batch. **It leaves no
incomplete copy behind unless it fails at a blocked key after files were opened, or an interruption
ends the clean-up before it reaches a copy.** The two exceptions are exact: in each of them a copy is
left, and a later pull that does not overwrite passes over it.
-/

namespace StateOwnership.Fetch

/-! ## 1. The files that a fetch opens -/

/-- The transfers of the files that a fetch opens, as they stand when it ends. They are submitted if
no key fails and the connection is made. -/
def transfersAfter (cloud : Cloud) (factory : Factory) (job : Job) (world : World) :
    List Transfer :=
  let seen := survey job .empty world job.backend.keys
  let opened := seen.mapping.transfers
  match seen.left, ((connecting cloud factory job).runIn (announced job opened seen.world)).1 with
  | [], .ok _ => (sentOf cloud job.backend.bucket opened).1
  | _, _ => opened

section Failing

variable {cloud : Cloud} {factory : Factory} {cancelAt : Option Nat} {job : Job}
  {world after : World} {transfers : List Transfer} {failure : Failure}

-- A download that fails has discarded its transfers: as they were opened if it could not connect,
-- and as they were submitted otherwise.
theorem download_error
    (h : (download cloud factory job cancelAt transfers).runIn world = (.error failure, after)) :
    (∃ problem between, (connecting cloud factory job).runIn world = (.error problem, between) ∧
        after = ((discard transfers).runIn between).2) ∨
      ∃ connection between waited,
        (connecting cloud factory job).runIn world = (.ok connection, between) ∧
        waited.files = submitted cloud job.backend.bucket transfers between.files ∧
        waited.log = between.log ∧
        after.files = closeAll (sentOf cloud job.backend.bucket transfers).1
          ((discard (sentOf cloud job.backend.bucket transfers).1).runIn waited).2.files ∧
        after.log = waited.log ∧ after.ticks = waited.ticks := by
  rcases Action.bind_error.mp h with hconnect | ⟨connection, between, hconnect, h⟩
  · obtain ⟨problem, between, hrun, hafter⟩ := Action.onFailure_error hconnect
    exact .inl ⟨problem, between, hrun, hafter⟩
  · obtain ⟨after', hsubmit, hfiles, hlog, -⟩ :=
      submit_run cloud job.backend.bucket transfers between
    simp only [Action.runIn_bind, hsubmit] at h
    obtain ⟨final, hfinally, rfl⟩ := Action.andFinally_eq h
    obtain ⟨problem, waited, hrun, rfl⟩ := Action.onFailure_error hfinally
    have hfinish := finish_run job cancelAt (sentOf cloud job.backend.bucket transfers).1
      (sentOf cloud job.backend.bucket transfers).2 after'
    rw [hrun] at hfinish
    exact .inr ⟨connection, between, waited, Action.onFailure_ok hconnect,
      hfinish.1.trans hfiles, hfinish.2.trans hlog, rfl, discard_quiet _ waited⟩

-- A fetch that fails does so at a key or in its download.
theorem fetch_error (h : (fetch cloud factory cancelAt job).runIn world = (.error failure, after)) :
    (mapKeys job .empty job.backend.keys).runIn world = (.error failure, after) ∨
      ∃ mapping between,
        (mapKeys job .empty job.backend.keys).runIn world = (.ok mapping, between) ∧
        (download cloud factory job cancelAt mapping.transfers).runIn
          (announced job mapping.transfers between) = (.error failure, after) := by
  simp only [fetch] at h
  rcases Action.bind_error.mp h with hkeys | ⟨mapping, between, hkeys, h⟩
  · exact .inl hkeys
  · refine .inr ⟨mapping, between, hkeys, ?_⟩
    split at h
    · simp only [Action.runIn_bind, Action.runIn_record] at h
      rcases hdownload : (download cloud factory job cancelAt mapping.transfers).runIn
        (announced job mapping.transfers between) with ⟨problem | _, final⟩
      · unfold announced at hdownload
        rw [hdownload] at h
        simpa using h
      · unfold announced at hdownload
        rw [hdownload] at h
        simp at h
    · simp only [Action.runIn_bind, Action.runIn_record, Action.runIn_pure] at h
      simp at h

end Failing

/-! ## 2. When nothing is left behind -/

section Residue

variable {cloud : Cloud} {factory : Factory} {cancelAt : Option Nat} {job : Job}
  {world after : World} {transfers : List Transfer} {files tree : FileTree} {failure : Failure}

theorem verdict_of_unsubmitted {t : Transfer} (h : t.delivery = none) (ticks : Nat) :
    t.verdict ticks = .incomplete := by
  simp [Transfer.verdict, h]

-- Of transfers that were not submitted, none is stranded and all are cleaned up.
theorem cleaned_of_unsubmitted (h : ∀ t ∈ transfers, t.delivery = none) (ticks : Nat) :
    cleaned ticks transfers = transfers ∧ stranded ticks transfers = [] := by
  have hverdict : ∀ t ∈ transfers, t.verdict ticks = .incomplete :=
    fun t ht => verdict_of_unsubmitted (h t ht) ticks
  have htake : transfers.takeWhile (·.verdict ticks ≠ .interrupted) = transfers := by
    rw [List.takeWhile_eq_self_iff]
    intro t ht
    simp [hverdict t ht]
  have hdrop : transfers.dropWhile (·.verdict ticks ≠ .interrupted) = [] := by
    rw [List.dropWhile_eq_nil_iff]
    intro t ht
    simp [hverdict t ht]
  constructor
  · rw [cleaned, htake, List.filter_eq_self]
    intro t ht
    simp [hverdict t ht]
  · rw [stranded, hdrop, List.filter_nil]

-- After the files of the cleaned transfers were taken away, an unsuccessful transfer has no file if
-- and only if the clean-up got to its place.
theorem residue_of_cleared (hopened : ∀ t ∈ transfers, Opened tree t) (ticks : Nat)
    (hcleared : Cleared ((cleaned ticks transfers).map (·.place)) tree files) :
    (∀ t ∈ transfers, t.verdict ticks ≠ .succeeded → files.pathExists t.path = false) ↔
      ∀ t ∈ stranded ticks transfers, ∃ s ∈ cleaned ticks transfers, s.place = t.place := by
  have hgone {t : Transfer} (ht : t ∈ transfers) :
      files.pathExists t.path = false ↔ ∃ s ∈ cleaned ticks transfers, s.place = t.place := by
    rw [← Bool.not_eq_true, (hopened t ht).pathExists_iff hcleared, not_not, List.mem_map]
  have hsplit := List.takeWhile_append_dropWhile
    (p := fun t : Transfer => decide (t.verdict ticks ≠ .interrupted)) (l := transfers)
  constructor
  · intro h t ht
    obtain ⟨hdrop, hverdict⟩ := List.mem_filter.mp ht
    have hmem : t ∈ transfers := by
      rw [← hsplit]
      exact List.mem_append_right _ hdrop
    exact (hgone hmem).mp (h t hmem (by simpa using hverdict))
  · intro h t ht hverdict
    refine (hgone ht).mpr ?_
    rw [← hsplit, List.mem_append] at ht
    rcases ht with htake | hdrop
    · exact ⟨t, List.mem_filter.mpr ⟨htake, by simpa using hverdict⟩, rfl⟩
    · exact h t (List.mem_filter.mpr ⟨hdrop, by simpa using hverdict⟩)

-- A fetch that fails at a key leaves none of the files that it opened, unless the key is blocked.
theorem residue_of_key
    (h : (mapKeys job .empty job.backend.keys).runIn world = (.error failure, after)) :
    (∀ t ∈ (survey job .empty world job.backend.keys).mapping.transfers,
        after.files.pathExists t.path = false) ↔
      ∀ key ∈ (survey job .empty world job.backend.keys).left.head?,
        Blocked job key (survey job .empty world job.backend.keys).world.files →
        (survey job .empty world job.backend.keys).mapping.transfers = [] := by
  obtain ⟨key, rest, hleft, hkey⟩ := mapKeys_error h
  obtain ⟨seen, -, hseen⟩ := survey_surveyed job .empty world job.backend.keys
  have hopened := hseen.opened (by simp [Mapping.empty])
  generalize survey job .empty world job.backend.keys = found at *
  have hbegun (t : Transfer) (ht : t ∈ found.mapping.transfers) :
      Opened (begun job key found.world).files t :=
    (hopened t ht).1.kept (begun_grown _ _ _).kept
  simp only [hleft, List.head?_cons, Option.mem_some_iff, forall_eq']
  rcases mapKey_error hkey with ⟨hblocked, rfl⟩ | ⟨hfree, rfl⟩
  · constructor
    · intro hgone _
      rw [List.eq_nil_iff_forall_not_mem]
      intro t ht
      have hthere := FileTree.pathExists_of_locate (hbegun t ht).check_eq (hbegun t ht).locate_eq
      rw [hgone t ht] at hthere
      simp at hthere
    · intro hnone
      simp [hnone hblocked]
  · refine iff_of_true ?_ fun hblocked => absurd hblocked hfree
    have hcleared := discard_run hbegun (.of_kinds rfl fun _ => rfl)
    rw [(cleaned_of_unsubmitted (fun t ht => (hopened t ht).2) _).1, List.nil_append] at hcleared
    intro t ht
    rw [← Bool.not_eq_true, (hbegun t ht).pathExists_iff hcleared, not_not]
    exact List.mem_map_of_mem ht

-- A fetch that fails in its download leaves no incomplete copy, except where an interruption ends
-- the clean-up.
theorem residue_of_download {mapping : Mapping} {between : World}
    (hkeys : (mapKeys job .empty job.backend.keys).runIn world = (.ok mapping, between))
    (h : (download cloud factory job cancelAt mapping.transfers).runIn
      (announced job mapping.transfers between) = (.error failure, after)) :
    (∀ t ∈ transfersAfter cloud factory job world, t.verdict after.ticks ≠ .succeeded →
        after.files.pathExists t.path = false) ↔
      ∀ t ∈ stranded after.ticks (transfersAfter cloud factory job world),
        ∃ s ∈ cleaned after.ticks (transfersAfter cloud factory job world), s.place = t.place := by
  have hsurvey := mapKeys_ok hkeys
  obtain ⟨seen, -, hseen⟩ := survey_surveyed job .empty world job.backend.keys
  have hopened := hseen.opened (by simp [Mapping.empty])
  simp only [hsurvey] at hopened
  rcases download_error h with ⟨problem, connected, hconnect, rfl⟩ |
    ⟨connection, connected, waited, hconnect, hwaited, -, hafter, -, hticks⟩
  · -- Not connected: nothing was submitted.
    have htransfers : transfersAfter cloud factory job world = mapping.transfers := by
      simp only [transfersAfter, hsurvey, hconnect]
    have hkept := (connecting_alike hconnect).kept
    have hconnected := fun t ht => (hopened t ht).1.kept hkept
    rw [htransfers, (discard_quiet mapping.transfers connected).2]
    exact residue_of_cleared hconnected _ (discard_run hconnected (.of_kinds rfl fun _ => rfl))
  · -- Connected: the transfers were submitted and waited for.
    have htransfers : transfersAfter cloud factory job world =
        (sentOf cloud job.backend.bucket mapping.transfers).1 := by
      simp only [transfersAfter, hsurvey, hconnect]
    have hconnected := fun t ht => (hopened t ht).1.kept (connecting_alike hconnect).kept
    have hsent := opened_sentOf cloud job.backend.bucket hconnected
    rw [← hwaited] at hsent
    have hcleared := discard_run hsent (.of_kinds rfl fun _ => rfl)
    have hclosed := closeAll_kept (sentOf cloud job.backend.bucket mapping.transfers).1
      ((discard (sentOf cloud job.backend.bucket mapping.transfers).1).runIn waited).2.files
    rw [← hafter] at hclosed
    have hall := hcleared.trans (.of_kinds hclosed.1 hclosed.2)
    rw [List.append_nil, List.nil_append, ← hticks] at hall
    rw [htransfers]
    exact residue_of_cleared hsent _ hall

/-- **A failed fetch leaves no incomplete copy if and only if** it did not fail at a blocked key after
files were opened, and every unsuccessful copy from the first interruption on stands at a place that
the clean-up got to before. -/
theorem no_residue_iff
    (h : ((fetch cloud factory cancelAt job).runIn world).1.toBool = false) :
    (∀ t ∈ transfersAfter cloud factory job world,
        t.verdict ((fetch cloud factory cancelAt job).runIn world).2.ticks ≠ .succeeded →
        ((fetch cloud factory cancelAt job).runIn world).2.files.pathExists t.path = false) ↔
      (∀ key ∈ (survey job .empty world job.backend.keys).left.head?,
        Blocked job key (survey job .empty world job.backend.keys).world.files →
        (survey job .empty world job.backend.keys).mapping.transfers = []) ∧
      ∀ t ∈ stranded ((fetch cloud factory cancelAt job).runIn world).2.ticks
          (transfersAfter cloud factory job world),
        ∃ s ∈ cleaned ((fetch cloud factory cancelAt job).runIn world).2.ticks
          (transfersAfter cloud factory job world), s.place = t.place := by
  rcases hfetch : (fetch cloud factory cancelAt job).runIn world with ⟨failure | outcome, after⟩
  swap
  · rw [hfetch] at h
    simp [Except.toBool] at h
  rcases fetch_error hfetch with hkeys | ⟨mapping, between, hkeys, hdownload⟩
  · obtain ⟨key, rest, hleft, -⟩ := mapKeys_error hkeys
    obtain ⟨seen, -, hseen⟩ := survey_surveyed job .empty world job.backend.keys
    have hopened := hseen.opened (by simp [Mapping.empty])
    have htransfers : transfersAfter cloud factory job world =
        (survey job .empty world job.backend.keys).mapping.transfers := by
      simp only [transfersAfter, hleft]
    have hunsent := fun t ht => (hopened t ht).2
    rw [htransfers, (cleaned_of_unsubmitted hunsent after.ticks).2, ← residue_of_key hkeys]
    constructor
    · intro hgone
      refine ⟨fun t ht => hgone t ht ?_, by simp⟩
      simp [verdict_of_unsubmitted (hunsent t ht)]
    · intro hgone t ht _
      exact hgone.1 t ht
  · rw [residue_of_download hkeys hdownload, mapKeys_ok hkeys]
    simp

end Residue

/-! ## 3. A copy that is left behind -/

/-- The fetch of keys of the bucket `b` to the directory `d`. -/
def sampleJob (keys : List Text) (overwrite : Bool) : Job :=
  ⟨⟨"b", keys, [], [], [], []⟩, "d", ⟨[], overwrite, []⟩⟩

/-- A copy that cannot be opened, because a directory bears its name, has the copies before it taken
away. -/
theorem no_residue_of_refused_open :
    let job := sampleJob ["a", "c/"] true
    let run := (fetch spellingCloud .standard none job).runIn sampleWorld
    run.1.toBool = false ∧ transfersAfter spellingCloud .standard job sampleWorld ≠ [] ∧
      ∀ t ∈ transfersAfter spellingCloud .standard job sampleWorld,
        t.verdict run.2.ticks ≠ .succeeded → run.2.files.pathExists t.path = false := by
  have hfails : ((fetch spellingCloud .standard none (sampleJob ["a", "c/"] true)).runIn
      sampleWorld).1.toBool = false := by decide +kernel
  exact ⟨hfails, by decide +kernel,
    (no_residue_iff hfails).mpr ⟨by decide +kernel, by decide +kernel⟩⟩

/-- **The copy of `a` is left behind** when the directory `a` for the key `a/b` cannot be made, though
nothing of the object was downloaded. -/
theorem residue_of_key_below_key :
    let job := sampleJob ["a", "a/b"] false
    let run := (fetch spellingCloud .standard none job).runIn sampleWorld
    run.1.toBool = false ∧
      ¬ ∀ t ∈ transfersAfter spellingCloud .standard job sampleWorld,
        t.verdict run.2.ticks ≠ .succeeded → run.2.files.pathExists t.path = false := by
  decide +kernel

end StateOwnership.Fetch
