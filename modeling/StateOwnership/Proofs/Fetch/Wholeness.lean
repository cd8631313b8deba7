import StateOwnership.Proofs.FileTree.Widening
import StateOwnership.Proofs.Fetch.Sparing

/-!
# Whole copies

A fetch that fails removes the copies that are not complete, and keeps those that are. **However a
fetch without overwriting ends, what it has added are directories and whole copies**, if no transfer
interrupts it and the paths of its copies lead to them in some later tree.
-/

namespace StateOwnership.Fetch

/-! ## 1. A transfer that stands alone -/

/-- A transfer is the only one of a batch at its place. -/
def Alone (transfers : List Transfer) (t : Transfer) : Prop :=
  ∃ before behind, transfers = before ++ t :: behind ∧
    ∀ other ∈ before ++ behind, other.place ≠ t.place

section Batches

variable {cloud : Cloud} {bucket : Text} {transfers : List Transfer} {t : Transfer}
  {files : FileTree} {world : World} {loc : Location}

theorem alone_iff : Alone transfers t ↔ transfers.filter (·.place = t.place) = [t] := by
  constructor
  · rintro ⟨before, behind, rfl, haway⟩
    have hnone {others : List Transfer} (hsub : others ⊆ before ++ behind) :
        others.filter (·.place = t.place) = [] := by
      rw [List.filter_eq_nil_iff]
      exact fun other hother => by simpa using haway other (hsub hother)
    rw [List.filter_append, hnone (List.subset_append_left _ _),
      List.filter_cons_of_pos (by simp), hnone (List.subset_append_right _ _), List.nil_append]
  · intro h
    obtain ⟨before, behind, rfl, hbefore, -, hbehind⟩ := List.filter_eq_cons_iff.mp h
    refine ⟨before, behind, rfl, fun other hother => ?_⟩
    rcases List.mem_append.mp hother with hmem | hmem
    · simpa using hbefore other hmem
    · simpa using List.filter_eq_nil_iff.mp hbehind other hmem

theorem Alone.mem (h : Alone transfers t) : t ∈ transfers := by
  obtain ⟨before, behind, rfl, -⟩ := h
  simp

theorem Alone.cons {first : Transfer} (h : Alone transfers t) (hfirst : first.place ≠ t.place) :
    Alone (first :: transfers) t := by
  rw [alone_iff, List.filter_cons_of_neg (by simpa using hfirst)]
  exact alone_iff.mp h

-- Another transfer of the batch stands at another place.
theorem Alone.place_ne (h : Alone transfers t) {other : Transfer} (hother : other ∈ transfers)
    (hne : other ≠ t) : other.place ≠ t.place := by
  obtain ⟨before, behind, rfl, haway⟩ := h
  rcases List.mem_append.mp hother with hmem | hmem
  · exact haway other (List.mem_append_left _ hmem)
  · rcases List.mem_cons.mp hmem with rfl | hmem
    · exact absurd rfl hne
    · exact haway other (List.mem_append_right _ hmem)

theorem get?_close_of_ne (h : t.place ≠ loc) (files : FileTree) :
    (t.close files).get? loc = files.get? loc := by
  unfold Transfer.close
  split
  · rfl
  · rw [FileTree.get?_overwriteStart, if_neg h]

theorem get?_closeAll_of_ne (h : ∀ t ∈ transfers, t.place ≠ loc) (files : FileTree) :
    (closeAll transfers files).get? loc = files.get? loc := by
  induction transfers with
  | nil => rfl
  | cons t rest ih =>
    exact (get?_close_of_ne (h t List.mem_cons_self) _).trans
      (ih fun s hs => h s (List.mem_cons_of_mem _ hs))

theorem get?_submitted_of_ne (h : ∀ t ∈ transfers, t.place ≠ loc) (files : FileTree) :
    (submitted cloud bucket transfers files).get? loc = files.get? loc := by
  induction transfers generalizing files with
  | nil => rfl
  | cons t rest ih =>
    rw [submitted]
    split
    · rfl
    · rw [ih fun s hs => h s (List.mem_cons_of_mem _ hs), FileTree.get?_overwriteStart,
        if_neg (h t List.mem_cons_self)]

-- Closing files writes the rest of the body of a transfer that stands alone.
theorem Alone.get?_closeAll (h : Alone transfers t) {delivery : Delivery}
    (hdelivery : t.delivery = some delivery) (files : FileTree) :
    (closeAll transfers files).get? t.place =
      (files.get? t.place).map (.overlaid (keptBack delivery.body)) := by
  obtain ⟨before, behind, rfl, haway⟩ := h
  have hbefore : ∀ s ∈ before, s.place ≠ t.place :=
    fun s hs => haway s (List.mem_append_left _ hs)
  have hbehind : ∀ s ∈ behind, s.place ≠ t.place :=
    fun s hs => haway s (List.mem_append_right _ hs)
  have hsplit : closeAll (before ++ t :: behind) files =
      closeAll before (t.close (closeAll behind files)) := by
    simp only [closeAll, List.foldr_append, List.foldr_cons]
  rw [hsplit, get?_closeAll_of_ne hbefore, Transfer.close, hdelivery]
  simp only
  rw [FileTree.get?_overwriteStart, if_pos rfl, get?_closeAll_of_ne hbehind]

/-- How a transfer that stands alone is submitted: not at all, or with the long part of its body
written. -/
theorem Alone.submitted (h : Alone transfers t) (cloud : Cloud) (bucket : Text)
    (files : FileTree) :
    (Alone (sentOf cloud bucket transfers).1 t ∧
        (Fetch.submitted cloud bucket transfers files).get? t.place = files.get? t.place) ∨
      (Alone (sentOf cloud bucket transfers).1 (t.deliver cloud bucket) ∧
        (Fetch.submitted cloud bucket transfers files).get? t.place = (files.get? t.place).map
          (.overlaid (writtenAtOnce (cloud.transfer bucket t.key).body))) := by
  obtain ⟨before, behind, rfl, haway⟩ := h
  induction before generalizing files with
  | nil =>
    have haway : ∀ s ∈ behind, s.place ≠ t.place := haway
    rw [List.nil_append, sentOf, Fetch.submitted]
    split
    · exact .inl ⟨⟨[], behind, rfl, haway⟩, rfl⟩
    · refine .inr ⟨⟨[], (sentOf cloud bucket behind).1, rfl, fun s hs => ?_⟩, ?_⟩
      · obtain ⟨other, hother, -, hplace⟩ := mem_sentOf cloud bucket hs
        rw [hplace]
        exact haway other hother
      · rw [get?_submitted_of_ne haway, FileTree.get?_overwriteStart, if_pos rfl]
  | cons first rest ih =>
    have hfirst : first.place ≠ t.place := haway first (by simp)
    have hrest := fun s hs => haway s (List.mem_cons_of_mem first hs)
    rw [List.cons_append, sentOf, Fetch.submitted]
    split
    · exact .inl ⟨⟨first :: rest, behind, rfl, haway⟩, rfl⟩
    · have hsame := FileTree.get?_overwriteStart files first.place t.place
        (writtenAtOnce (cloud.transfer bucket first.key).body)
      rw [if_neg hfirst] at hsame
      rcases ih (files.overwriteStart first.place
          (writtenAtOnce (cloud.transfer bucket first.key).body)) hrest with
        ⟨halone, hget⟩ | ⟨halone, hget⟩
      · exact .inl ⟨halone.cons hfirst, hget.trans hsame⟩
      · exact .inr ⟨halone.cons hfirst, by rw [hget, hsame]⟩

/-! ## 2. Discarding -/

theorem Opened.target_eq (h : Opened files t) :
    Path.target files.start t.path = t.place :=
  (FileTree.locate_ok h.locate_eq).1.symm

-- Removing a file leaves the content of every other one alone.
theorem remove_frame (hplace : Path.target world.files.start t.path = t.place)
    (hne : t.place ≠ loc) (hloc : loc ∉ world.log.places) :
    ((remove t).runIn world).2.files.start = world.files.start ∧
      ((remove t).runIn world).2.files.get? loc = world.files.get? loc := by
  have hstart := (close_kept t world.files).1
  have hclose := get?_close_of_ne hne world.files
  have hrecorded {files : FileTree} (hfilesStart : files.start = world.files.start)
      (hget : files.get? loc = world.files.get? loc) (r : Log.Record) :
      ({ world with files := files }.record r).files.start = world.files.start ∧
        ({ world with files := files }.record r).files.get? loc = world.files.get? loc := by
    have hrecord := (World.Alike.record { world with files := files } r).files
    exact ⟨hrecord.start_eq.trans hfilesStart, (hrecord.get?_eq loc hloc).trans hget⟩
  simp only [remove, Action.runIn_bind, Action.runIn_files]
  split
  · rename_i after hremove
    have hafter := (FileTree.removeFile_ok hremove).2
    rw [hstart, hplace] at hafter
    have hget : after.get? loc = world.files.get? loc := by
      rw [hafter, FileTree.get?_erase_of_ne hne, hclose]
    exact hrecorded (by rw [hafter]; exact hstart) hget _
  · simp only [Action.runIn_bind, Action.runIn_setFiles]
    split
    · exact hrecorded hstart hclose _
    · exact ⟨hstart, hclose⟩
  · exact ⟨hstart, hclose⟩

-- Discarding leaves every content alone but those of the files that it takes away.
theorem discard_frame (hplaces : ∀ t ∈ transfers, Path.target world.files.start t.path = t.place)
    (haway : ∀ t ∈ cleaned world.ticks transfers, t.place ≠ loc) (hloc : loc ∉ world.log.places) :
    ((discard transfers).runIn world).2.files.get? loc = world.files.get? loc := by
  induction transfers generalizing world with
  | nil => rfl
  | cons t rest ih =>
    have hrest := fun s hs => hplaces s (List.mem_cons_of_mem t hs)
    simp only [discard, Action.runIn_bind, Action.runIn_ticks]
    cases hverdict : t.verdict world.ticks with
    | succeeded =>
      refine ih hrest (fun s hs => haway s ?_) hloc
      simpa [cleaned, hverdict] using hs
    | interrupted => rfl
    | incomplete =>
      have hcleaned : cleaned world.ticks (t :: rest) = t :: cleaned world.ticks rest := by
        simp [cleaned, hverdict]
      rw [hcleaned] at haway
      obtain ⟨hstart, hget⟩ :=
        remove_frame (hplaces t List.mem_cons_self) (haway t List.mem_cons_self) hloc
      have hquiet := remove_quiet t world
      simp only [Action.runIn_bind]
      rcases hrun : (remove t).runIn world with ⟨failure | _, between⟩
      · rw [hrun] at hget
        exact hget
      · rw [hrun] at hstart hget hquiet
        simp only at hstart hget hquiet
        rw [← hget]
        refine ih (fun s hs => by rw [hstart]; exact hrest s hs) (fun s hs => ?_) ?_
        · rw [hquiet.2] at hs
          exact haway s (List.mem_cons_of_mem _ hs)
        · rw [hquiet.1]
          exact hloc

theorem cleaned_subset (ticks : Nat) (transfers : List Transfer) :
    cleaned ticks transfers ⊆ transfers :=
  (List.filter_sublist.trans (List.takeWhile_sublist _)).subset

-- Where no transfer interrupts the program all that did not succeed are cleaned up.
theorem cleaned_of_uninterrupted {ticks : Nat}
    (h : ∀ t ∈ transfers, t.verdict ticks ≠ .interrupted) :
    cleaned ticks transfers = transfers.filter (·.verdict ticks ≠ .succeeded) := by
  rw [cleaned, List.takeWhile_eq_self_iff.mpr]
  intro t ht
  simpa using h t ht

-- Where no transfer interrupts the program all that did not succeed are removed for good.
theorem get?_discarded (hopened : ∀ t ∈ transfers, Opened world.files t)
    (hgoesOn : ∀ t ∈ transfers, t.verdict world.ticks ≠ .interrupted) (ht : t ∈ transfers)
    (hverdict : t.verdict world.ticks ≠ .succeeded) :
    (closeAll transfers ((discard transfers).runIn world).2.files).get? t.place = none := by
  have hcleared := discard_run hopened (.of_kinds rfl fun _ => rfl)
  rw [cleaned_of_uninterrupted hgoesOn] at hcleared
  rw [← FileTree.kind?_eq_none, (closeAll_kept _ _).2]
  refine hcleared.gone _ ?_ (hopened t ht).kind?_eq
  exact List.mem_map_of_mem (List.mem_filter.mpr ⟨ht, by simpa using hverdict⟩)

-- What did succeed at a place of its own is kept, and filled when it is closed.
theorem Alone.get?_kept (h : Alone transfers t) (hopened : ∀ t ∈ transfers, Opened world.files t)
    (hgoesOn : ∀ t ∈ transfers, t.verdict world.ticks ≠ .interrupted)
    (hloc : t.place ∉ world.log.places) {delivery : Delivery}
    (hdelivery : t.delivery = some delivery) (hverdict : t.verdict world.ticks = .succeeded) :
    (closeAll transfers ((discard transfers).runIn world).2.files).get? t.place =
      (world.files.get? t.place).map (.overlaid (keptBack delivery.body)) := by
  rw [h.get?_closeAll hdelivery, discard_frame (fun s hs => (hopened s hs).target_eq) _ hloc]
  intro s hs
  rw [cleaned_of_uninterrupted hgoesOn] at hs
  obtain ⟨hmem, hfailed⟩ := List.mem_filter.mp hs
  refine h.place_ne hmem ?_
  rintro rfl
  simp [hverdict] at hfailed

end Batches

/-! ## 3. Downloads that end in any way -/

/-- The services have a content for every object: a transfer without a fault brings the whole of it.
No transfer interrupts the program. -/
structure Serves (content : (bucket key : Text) → Bytes) (cloud : Cloud) : Prop where
  body_eq : ∀ bucket key, (cloud.transfer bucket key).fault = none →
    (cloud.transfer bucket key).body = content bucket key
  uninterrupted : ∀ bucket key, (cloud.transfer bucket key).fault ≠ some .interrupted

section Downloads

variable {content : (bucket key : Text) → Bytes} {cloud : Cloud} {factory : Factory}
  {cancelAt : Option Nat} {job : Job} {bucket : Text} {transfers : List Transfer}
  {s t : Transfer} {world after : World} {loc : Location} {failure : Failure}

-- A transfer of a batch was submitted or it is as it was opened.
theorem unsent_or_sent (h : s ∈ (sentOf cloud bucket transfers).1) :
    s ∈ transfers ∨ ∃ t ∈ transfers, s = t.deliver cloud bucket := by
  induction transfers with
  | nil => simp [sentOf] at h
  | cons t rest ih =>
    rw [sentOf] at h
    split at h
    · exact .inl h
    · rcases List.mem_cons.mp h with rfl | h
      · exact .inr ⟨t, List.mem_cons_self, rfl⟩
      · rcases ih h with hmem | ⟨other, hother, hsent⟩
        · exact .inl (List.mem_cons_of_mem _ hmem)
        · exact .inr ⟨other, List.mem_cons_of_mem _ hother, hsent⟩

theorem verdict_deliver_succeeded_iff {ticks : Nat} :
    (t.deliver cloud bucket).verdict ticks = .succeeded ↔
      (cloud.transfer bucket t.key).readyAfter ≤ ticks ∧
        (cloud.transfer bucket t.key).fault = none := by
  simp only [Transfer.verdict, Transfer.deliver]
  split
  · rename_i hready
    split <;> simp_all
  · rename_i hpending
    simp [hpending]

theorem verdict_deliver_interrupted_iff {ticks : Nat} :
    (t.deliver cloud bucket).verdict ticks = .interrupted ↔
      (cloud.transfer bucket t.key).readyAfter ≤ ticks ∧
        (cloud.transfer bucket t.key).fault = some .interrupted := by
  simp only [Transfer.verdict, Transfer.deliver]
  split
  · rename_i hready
    split <;> simp_all
  · rename_i hpending
    simp [hpending]

theorem Serves.verdict_ne (h : Serves content cloud) (hnew : ∀ t ∈ transfers, t.delivery = none)
    (ticks : Nat) : ∀ s ∈ (sentOf cloud bucket transfers).1, s.verdict ticks ≠ .interrupted := by
  intro s hs
  rcases unsent_or_sent hs with hmem | ⟨t, -, rfl⟩
  · simp [verdict_of_unsubmitted (hnew s hmem)]
  · intro hverdict
    exact h.uninterrupted bucket t.key (verdict_deliver_interrupted_iff.mp hverdict).2

-- A download changes the files of its transfers alone, and those of the log.
theorem download_error_of_ne (hopened : ∀ t ∈ transfers, Opened world.files t)
    (haway : ∀ t ∈ transfers, t.place ≠ loc) (hloc : loc ∉ world.log.places)
    (h : (download cloud factory job cancelAt transfers).runIn (announced job transfers world) =
      (.error failure, after)) : after.files.get? loc = world.files.get? loc := by
  rcases download_error h with ⟨problem, between, hconnect, rfl⟩ |
    ⟨connection, between, waited, hconnect, hwaited, hlog, hafter, -, -⟩
  · have halike := connecting_alike hconnect
    rw [discard_frame (fun t ht => ((hopened t ht).kept halike.kept).target_eq)
      (fun t ht => haway t (cleaned_subset _ _ ht)) (halike.log_eq ▸ hloc),
      halike.files.get?_eq loc hloc]
  · have halike := connecting_alike hconnect
    have hsent := opened_sentOf cloud job.backend.bucket
      fun t ht => (hopened t ht).kept halike.kept
    rw [← hwaited] at hsent
    have hsentAway : ∀ s ∈ (sentOf cloud job.backend.bucket transfers).1, s.place ≠ loc := by
      intro s hs
      obtain ⟨t, ht, -, hplace⟩ := mem_sentOf cloud job.backend.bucket hs
      exact hplace ▸ haway t ht
    rw [hafter, get?_closeAll_of_ne hsentAway, discard_frame
      (fun s hs => (hsent s hs).target_eq) (fun s hs => hsentAway s (cleaned_subset _ _ hs))
      (by rwa [hlog, halike.log_eq]), hwaited, get?_submitted_of_ne haway,
      halike.files.get?_eq loc hloc]

-- **A download that fails leaves a file of its own that holds the whole object, or none.**
theorem download_error_whole (hserves : Serves content cloud)
    (hopened : ∀ t ∈ transfers, Opened world.files t ∧ t.delivery = none)
    (halone : Alone transfers t) (hempty : world.files.get? t.place = some (.file []))
    (hloc : t.place ∉ world.log.places)
    (h : (download cloud factory job cancelAt transfers).runIn (announced job transfers world) =
      (.error failure, after)) :
    after.files.get? t.place = none ∨
      after.files.get? t.place = some (.file (content job.backend.bucket t.key)) := by
  rcases download_error h with ⟨problem, between, hconnect, rfl⟩ |
    ⟨connection, between, waited, hconnect, hwaited, hlog, hafter, -, -⟩
  · -- Not connected: nothing was submitted, and all files are removed.
    have hkept := (connecting_alike hconnect).kept
    have hcleared := discard_run (fun s hs => (hopened s hs).1.kept hkept)
      (.of_kinds rfl fun _ => rfl)
    rw [(cleaned_of_unsubmitted (fun s hs => (hopened s hs).2) _).1] at hcleared
    refine .inl (FileTree.kind?_eq_none.mp (hcleared.gone _ ?_ ?_))
    · exact List.mem_map_of_mem halone.mem
    · exact ((hopened t halone.mem).1.kept hkept).kind?_eq
  · have halike := connecting_alike hconnect
    have hempty : between.files.get? t.place = some (.file []) := by
      rw [halike.files.get?_eq _ hloc, hempty]
    have hsent := opened_sentOf cloud job.backend.bucket
      fun s hs => (hopened s hs).1.kept halike.kept
    rw [← hwaited] at hsent
    have hnew := fun s hs => (hopened s hs).2
    have hgoesOn : ∀ s ∈ (sentOf cloud job.backend.bucket transfers).1,
        s.verdict waited.ticks ≠ .interrupted := hserves.verdict_ne hnew waited.ticks
    rw [hafter]
    rcases halone.submitted cloud job.backend.bucket between.files with
      ⟨hunsent, -⟩ | ⟨hdelivered, hwritten⟩
    · have hverdict := verdict_of_unsubmitted (hnew t halone.mem) waited.ticks
      exact .inl (get?_discarded hsent hgoesOn hunsent.mem (by simp [hverdict]))
    · have hplace : (t.deliver cloud job.backend.bucket).place = t.place := rfl
      by_cases hverdict : (t.deliver cloud job.backend.bucket).verdict waited.ticks = .succeeded
      · have hkept := hdelivered.get?_kept hsent hgoesOn (by rwa [hlog, halike.log_eq]) rfl hverdict
        rw [hplace, hwaited, hwritten, hempty] at hkept
        right
        rw [hkept, ← hserves.body_eq _ _ (verdict_deliver_succeeded_iff.mp hverdict).2]
        exact congrArg (fun body => some (FileTree.Entry.file body)) (layered_singleton _)
      · left
        rw [← hplace]
        exact get?_discarded hsent hgoesOn hdelivered.mem hverdict

end Downloads

/-! ## 4. Whole fetches -/

/-- What fetches that do not overwrite may have brought to a location, however they ended: nothing,
or, where nothing was, a directory on the way of a copy or the whole of an object whose copy belongs
there. -/
inductive Supplied (content : (bucket key : Text) → Bytes) (jobs : List Job)
    (start loc : Location) : Option FileTree.Entry → Option FileTree.Entry → Prop where
  | same (entry : Option FileTree.Entry) : Supplied content jobs start loc entry entry
  | directory {job : Job} (hjob : job ∈ jobs) (hthrough : job.LeadsThrough start loc) :
      Supplied content jobs start loc none (some .directory)
  | copy {job : Job} {key : Text} (hjob : job ∈ jobs) (hkey : key ∈ job.backend.keys)
      (hplace : job.place start key = loc) :
      Supplied content jobs start loc none (some (.file (content job.backend.bucket key)))

/-- The paths of all copies of a job lead to their places in a tree. -/
def Job.Reached (job : Job) (files : FileTree) : Prop :=
  ∀ key ∈ job.backend.keys, (job.localCopy key).directory ≠ [] ∧
    Path.check (job.localPath key) = .ok () ∧
    files.locate (job.localPath key) = .ok (job.place files.start key)

theorem directory_ne_nil {job : Job} (h : job.destination ≠ []) (key : Text) :
    (job.localCopy key).directory ≠ [] :=
  Path.join_ne_nil (Path.join_ne_nil h _) _

-- Where a copy is reached something is, and what is on its way is a directory.
theorem Job.Reached.get?_place {job : Job} {files : FileTree} (h : job.Reached files)
    (hroot : files.Rooted) {key : Text} (hkey : key ∈ job.backend.keys) :
    files.get? (job.place files.start key) ≠ none := fun hnone =>
  FileTree.kind?_of_locate hroot (h key hkey).2.2 (FileTree.kind?_eq_none.mpr hnone)

theorem Job.Reached.get?_way {job : Job} {files : FileTree} (h : job.Reached files)
    {loc : Location} (hthrough : job.LeadsThrough files.start loc) :
    files.get? loc = some .directory := by
  obtain ⟨key, hkey, htrail⟩ := hthrough
  exact FileTree.kind?_eq_directory.mp (FileTree.directories_of_locate (h key hkey).2.2
    (Path.fileName_no_slash _) loc htrail)

section Fetches

variable {content : (bucket key : Text) → Bytes} {cloud : Cloud} {factory : Factory}
  {cancelAt : Option Nat} {job : Job} {jobs : List Job} {key : Text} {start loc : Location}
  {keys : List Text} {mapping : Mapping} {world between after : World} {failure : Failure}
  {final : FileTree} {first second third : Option FileTree.Entry}

theorem Supplied.trans (h : Supplied content jobs start loc first second)
    (h' : Supplied content jobs start loc second third) :
    Supplied content jobs start loc first third := by
  cases h with
  | same => exact h'
  | directory hjob hthrough =>
    cases h' with
    | same => exact .directory hjob hthrough
  | copy hjob hkey hplace =>
    cases h' with
    | same => exact .copy hjob hkey hplace

-- A fetch that does not overwrite takes nothing away that was there before it.
theorem fetch_kept (cloud : Cloud) (factory : Factory) (cancelAt : Option Nat)
    (hkeep : job.options.overwrite = false) (world : World) :
    FileTree.Kept world.files ((fetch cloud factory cancelAt job).runIn world).2.files := by
  obtain ⟨hspared, -⟩ := fetch_sparing cloud factory cancelAt job world
  refine ⟨hspared.start_eq, fun loc hloc => ?_⟩
  cases hkind : world.files.kind? loc with
  | none => exact absurd hkind hloc
  | some kind =>
    cases kind with
    | directory => exact hspared.directory loc hkind
    | file =>
      refine (hspared.file_iff ?_).mpr hkind
      rintro ⟨-, -, -, -, hfree⟩
      exact hfree hkeep hkind

-- A key is not blocked if its copy's path leads somewhere in a tree that keeps what is there.
theorem not_blocked (hroot : world.files.Rooted) (hkept : FileTree.Kept world.files final)
    (hreached : job.Reached final) (hkey : key ∈ job.backend.keys) :
    ¬ Blocked job key world.files := by
  obtain ⟨hne, hcheck, hlocate⟩ := hreached key hkey
  rintro (hdirectory | hpath)
  · exact hdirectory (FileTree.makeDirectories_of_kept hroot hkept hne (Path.fileName_no_slash _)
      hcheck hlocate)
  · exact hpath hcheck

/-- What looking at keys has come to at a location where nothing was. -/
inductive Begun (job : Job) (world between : World) (mapping : Mapping) (loc : Location) : Prop where
  | opened {t : Transfer} (hkey : t.key ∈ job.backend.keys)
      (hplace : job.place world.files.start t.key = loc) (hloc : t.place = loc)
      (halone : Alone mapping.transfers t) (hempty : between.files.get? loc = some (.file []))
  | made (hthrough : job.LeadsThrough world.files.start loc)
      (haway : ∀ t ∈ mapping.transfers, t.place ≠ loc)
      (hdir : between.files.get? loc = some .directory)
  | untouched (haway : ∀ t ∈ mapping.transfers, t.place ≠ loc)
      (hnone : between.files.get? loc = none)

-- Without overwriting a file that is opened has its place to itself.
theorem Surveyed.begun (h : Surveyed job keys .empty world mapping between)
    (hkeys : ∀ key ∈ keys, key ∈ job.backend.keys) (hroot : world.files.Rooted)
    (hloc : loc ∉ world.log.places) (hkeep : job.options.overwrite = false)
    (hnone : world.files.get? loc = none) : Begun job world between mapping loc := by
  have hstays : Mapping.empty.openedAt loc = [] := rfl
  have haway (hopened : mapping.openedAt loc = Mapping.empty.openedAt loc) :
      ∀ t ∈ mapping.transfers, t.place ≠ loc := by
    rw [hstays, Mapping.openedAt, List.map_eq_nil_iff, List.filter_eq_nil_iff] at hopened
    simpa using hopened
  rcases h.effect_of_none hroot hloc hkeep hnone with
    ⟨key, hkey, hopened, hempty⟩ | ⟨hopened, hdir, key, hkey, htrail⟩ | ⟨hopened, hsame, -⟩
  · rw [hstays, List.nil_append, Mapping.openedAt, List.map_eq_singleton_iff] at hopened
    obtain ⟨t, hfilter, rfl⟩ := hopened
    obtain ⟨hmem, hplace⟩ := List.mem_filter.mp (List.mem_of_head? hkey)
    have ht : t ∈ mapping.transfers.filter (·.place = loc) := by simp [hfilter]
    obtain rfl : t.place = loc := by simpa using (List.mem_filter.mp ht).2
    exact .opened (hkeys _ hmem) (by simpa using hplace) rfl (alone_iff.mpr hfilter) hempty
  · exact .made ⟨key, hkeys key hkey, htrail⟩ (haway hopened) hdir
  · exact .untouched (haway hopened) hsame

-- A key that cannot be opened has all files removed, and leaves directories alone.
theorem Begun.refused (h : Begun job world between mapping loc) (hjob : job ∈ jobs)
    (hkey : key ∈ job.backend.keys) (hstart : between.files.start = world.files.start)
    (hopened : ∀ t ∈ mapping.transfers, Opened between.files t ∧ t.delivery = none) :
    Supplied content jobs world.files.start loc none
      (((discard mapping.transfers).runIn (Fetch.begun job key between)).2.files.get? loc) := by
  have hgrown := begun_grown job key between
  have hthere := fun t ht => (hopened t ht).1.kept hgrown.kept
  have hcleared := discard_run hthere (.of_kinds rfl fun _ => rfl)
  rw [(cleaned_of_unsubmitted (fun t ht => (hopened t ht).2) _).1, List.nil_append] at hcleared
  have hdirectory (hdir : (Fetch.begun job key between).files.get? loc = some .directory) :
      ((discard mapping.transfers).runIn (Fetch.begun job key between)).2.files.get? loc =
        some .directory := by
    rw [← FileTree.kind?_eq_directory] at hdir ⊢
    rw [hcleared.left loc fun _ => by simp [hdir], hdir]
  cases h with
  | opened hlisted hplace hloc halone hempty =>
    have hgone := hcleared.gone _ (List.mem_map_of_mem halone.mem) (hthere _ halone.mem).kind?_eq
    rw [← hloc, FileTree.kind?_eq_none.mp hgone]
    exact .same none
  | made hthrough haway hdir =>
    rw [hdirectory (hgrown.get?_of_some hdir)]
    exact .directory hjob hthrough
  | untouched haway hnone =>
    rcases hgrown.get?_eq loc with hsame | ⟨htrail, -, hdir⟩
    · have hkind := FileTree.kind?_eq_none.mpr (hsame.trans hnone)
      rw [← hcleared.left loc fun _ => by simp [hkind], FileTree.kind?_eq_none] at hkind
      rw [hkind]
      exact .same none
    · rw [hdirectory hdir]
      exact .directory hjob ⟨key, hkey, hstart ▸ htrail⟩

-- What was begun is supplied once a batch has left elsewhere as it was, and whole copies or none at
-- the places of its files.
theorem Begun.supplied (h : Begun job world between mapping loc) (hjob : job ∈ jobs)
    (haway : (∀ t ∈ mapping.transfers, t.place ≠ loc) →
      after.files.get? loc = between.files.get? loc)
    (hwhole : ∀ t, Alone mapping.transfers t → t.place = loc →
      between.files.get? loc = some (.file []) → after.files.get? loc = none ∨
        after.files.get? loc = some (.file (content job.backend.bucket t.key))) :
    Supplied content jobs world.files.start loc none (after.files.get? loc) := by
  cases h with
  | opened hlisted hplace hhere halone hempty =>
    rcases hwhole _ halone hhere hempty with hnone | hfile
    · rw [hnone]
      exact .same none
    · rw [hfile]
      exact .copy hjob hlisted hplace
  | made hthrough helsewhere hdir =>
    rw [haway helsewhere, hdir]
    exact .directory hjob hthrough
  | untouched helsewhere hnone =>
    rw [haway helsewhere, hnone]
    exact .same none

theorem Begun.failed (h : Begun job world between mapping loc) (hserves : Serves content cloud)
    (hjob : job ∈ jobs) (hloc : loc ∉ between.log.places)
    (hopened : ∀ t ∈ mapping.transfers, Opened between.files t ∧ t.delivery = none)
    (hrun : (download cloud factory job cancelAt mapping.transfers).runIn
      (announced job mapping.transfers between) = (.error failure, after)) :
    Supplied content jobs world.files.start loc none (after.files.get? loc) := by
  refine h.supplied hjob (fun haway => ?_) fun t halone hplace hempty => ?_
  · exact download_error_of_ne (fun t ht => (hopened t ht).1) haway hloc hrun
  · subst hplace
    exact download_error_whole hserves hopened halone hempty hloc hrun

theorem Begun.filled (h : Begun job world between mapping loc) (hserves : Serves content cloud)
    (hjob : job ∈ jobs) (hloc : loc ∉ between.log.places)
    (hfilled : Filled cloud job mapping between after)
    (hfaultless : ∀ t ∈ mapping.transfers, (cloud.transfer job.backend.bucket t.key).fault = none) :
    Supplied content jobs world.files.start loc none (after.files.get? loc) := by
  have hget := hfilled.get?_eq loc hloc
  refine h.supplied hjob (fun haway => ?_) fun t halone hplace _ => .inr ?_
  · rw [hget, if_pos]
    rw [Mapping.openedAt, List.map_eq_nil_iff, List.filter_eq_nil_iff]
    simpa using haway
  · have hopened : mapping.openedAt loc = [t.key] := by
      rw [Mapping.openedAt, ← hplace, alone_iff.mp halone, List.map_singleton]
    rw [hget, hopened, if_neg (List.cons_ne_nil _ _), List.map_singleton, layered_singleton,
      Job.body, hserves.body_eq _ _ (hfaultless t halone.mem)]

/-- **However a fetch ends that does not overwrite, what it has brought to a location is whole**, if
no key of it was blocked, as none can be whose copy's path leads to its place at a later time. -/
theorem fetch_supplied (hserves : Serves content cloud) (hkeep : job.options.overwrite = false)
    (hroot : world.files.Rooted) (hjob : job ∈ jobs) (hreached : job.Reached final)
    (hkept : FileTree.Kept ((fetch cloud factory cancelAt job).runIn world).2.files final)
    (hloc : loc ∉ world.log.places) :
    Supplied content jobs world.files.start loc (world.files.get? loc)
      (((fetch cloud factory cancelAt job).runIn world).2.files.get? loc) := by
  have hthere := fetch_kept cloud factory cancelAt hkeep world
  cases hbefore : world.files.get? loc with
  | some entry =>
    suffices hsame : ((fetch cloud factory cancelAt job).runIn world).2.files.get? loc =
        some entry by
      rw [hsame]
      exact .same _
    obtain ⟨hspared, -⟩ := fetch_sparing cloud factory cancelAt job world
    cases entry with
    | directory =>
      rw [← FileTree.kind?_eq_directory] at hbefore ⊢
      exact hspared.directory loc hbefore
    | file content =>
      refine (hspared.content_iff ?_ hloc content).mpr hbefore
      rintro ⟨-, -, -, -, hfree⟩
      exact hfree hkeep (FileTree.kind?_eq_file.mpr ⟨content, hbefore⟩)
  | none =>
    obtain ⟨seen, hseen, hsurveyed⟩ := survey_surveyed job .empty world job.backend.keys
    have hkeys : ∀ key ∈ seen, key ∈ job.backend.keys := by
      intro key hkey
      rw [hseen]
      exact List.mem_append_left _ hkey
    have hbegun := hsurveyed.begun hkeys hroot hloc hkeep hbefore
    have hopened := hsurveyed.opened (by simp [Mapping.empty])
    have hstart := hsurveyed.kept.start_eq
    have hlog := hsurveyed.log_eq.1
    rcases hrun : (fetch cloud factory cancelAt job).runIn world with ⟨failure | outcome, after⟩
    · rw [hrun] at hkept
      rcases fetch_error hrun with hfails | ⟨mapping, between, hmapped, hdownload⟩
      · obtain ⟨key, rest, hleft, hkey⟩ := mapKeys_error hfails
        have hmem : key ∈ job.backend.keys := by
          rw [hseen, hleft]
          simp
        rcases mapKey_error hkey with ⟨hblocked, rfl⟩ | ⟨-, rfl⟩
        · have hlater := (begun_grown job key _).kept.trans hkept
          exact absurd hblocked
            (not_blocked (hsurveyed.kept.rooted hroot) hlater hreached hmem)
        · exact hbegun.refused hjob hmem hstart hopened
      · rw [mapKeys_ok hmapped] at hbegun hopened hlog
        exact hbegun.failed hserves hjob (hlog ▸ hloc) hopened hdownload
    · obtain ⟨mapping, between, hsurveyed, hfilled, hfaultless⟩ := fetch_filled hroot hrun
      have hbegun := hsurveyed.begun (fun _ h => h) hroot hloc hkeep hbefore
      exact hbegun.filled hserves hjob (hsurveyed.log_eq.1 ▸ hloc) hfilled hfaultless

end Fetches

end StateOwnership.Fetch
