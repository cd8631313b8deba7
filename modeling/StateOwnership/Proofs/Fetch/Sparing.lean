import StateOwnership.Proofs.Fetch.Residue
import StateOwnership.Proofs.Fetch.Settling

/-!
# What a fetch leaves alone

However a fetch ends, it has made directories on the way of its copies, and opened, written and
removed files at the places of its copies only. **Without overwriting none of these files was there
before**: a copy is begun where its path leads nowhere, and the clean-up removes what was begun. No
directory is taken away.
-/

namespace StateOwnership

/-! ## 1. Trees that spare what is elsewhere -/

namespace FileTree

/-- A tree that came from another one by making directories at locations of the first kind, by
opening, writing and removing files at locations of the second kind, and by writing to the files of
the log. -/
structure Spared (made opened : Location → Prop) (logs : List Location) (files after : FileTree) :
    Prop where
  start_eq : after.start = files.start
  directory : ∀ loc, files.kind? loc = some .directory → after.kind? loc = some .directory
  kind?_eq : ∀ loc, ¬ opened loc → after.kind? loc = files.kind? loc ∨
    made loc ∧ files.kind? loc = none ∧ after.kind? loc = some .directory
  get?_eq : ∀ loc, ¬ opened loc → loc ∉ logs → files.kind? loc = some .file →
    after.get? loc = files.get? loc

namespace Spared

variable {made opened made' opened' : Location → Prop} {logs : List Location}
  {files between after : FileTree}

theorem refl (made opened : Location → Prop) (logs : List Location) (files : FileTree) :
    Spared made opened logs files files :=
  ⟨rfl, fun _ h => h, fun _ _ => .inl rfl, fun _ _ _ _ => rfl⟩

-- A file that nothing was opened at is one before and after.
theorem file_iff (h : Spared made opened logs files after) {loc : Location} (hloc : ¬ opened loc) :
    after.kind? loc = some .file ↔ files.kind? loc = some .file := by
  rcases h.kind?_eq loc hloc with hsame | ⟨-, hnone, hdir⟩
  · rw [hsame]
  · rw [hnone, hdir]
    simp

-- A file that nothing was opened at holds the same before and after, unless the log is written to it.
theorem content_iff (h : Spared made opened logs files after) {loc : Location} (hloc : ¬ opened loc)
    (hlog : loc ∉ logs) (content : Bytes) :
    after.get? loc = some (.file content) ↔ files.get? loc = some (.file content) := by
  constructor
  · intro hafter
    have hfile := (h.file_iff hloc).mp (kind?_eq_file.mpr ⟨content, hafter⟩)
    rw [← h.get?_eq loc hloc hlog hfile, hafter]
  · intro hbefore
    rw [h.get?_eq loc hloc hlog (kind?_eq_file.mpr ⟨content, hbefore⟩), hbefore]

theorem trans (h : Spared made opened logs files between)
    (h' : Spared made opened logs between after) : Spared made opened logs files after := by
  refine ⟨h'.start_eq.trans h.start_eq, fun loc hdir => h'.directory loc (h.directory loc hdir),
    fun loc hloc => ?_, fun loc hloc hlog hfile => ?_⟩
  · rcases h.kind?_eq loc hloc with hsame | ⟨hmade, hnone, hdir⟩
    · rw [← hsame]
      exact h'.kind?_eq loc hloc
    · exact .inr ⟨hmade, hnone, h'.directory loc hdir⟩
  · rw [h'.get?_eq loc hloc hlog ((h.file_iff hloc).mpr hfile), h.get?_eq loc hloc hlog hfile]

theorem mono (h : Spared made opened logs files after) (hmade : ∀ loc, made loc → made' loc)
    (hopened : ∀ loc, opened loc → opened' loc) : Spared made' opened' logs files after := by
  refine ⟨h.start_eq, h.directory, fun loc hloc => ?_, fun loc hloc => ?_⟩
  · exact (h.kind?_eq loc fun hop => hloc (hopened loc hop)).imp_right
      fun hnew => ⟨hmade loc hnew.1, hnew.2⟩
  · exact h.get?_eq loc fun hop => hloc (hopened loc hop)

theorem of_grown {places : List Location} (h : Grown places files after)
    (hmade : ∀ loc ∈ places, made loc) : Spared made opened logs files after := by
  refine ⟨h.start_eq, fun loc hdir => ?_, fun loc _ => ?_, fun loc _ _ hfile => ?_⟩
  · exact kind?_eq_directory.mpr (h.get?_of_some (kind?_eq_directory.mp hdir))
  · rcases h.get?_eq loc with hsame | ⟨hloc, hnone, hdir⟩
    · exact .inl (by simp only [kind?, hsame])
    · exact .inr ⟨hmade loc hloc, kind?_eq_none.mpr hnone, kind?_eq_directory.mpr hdir⟩
  · obtain ⟨content, hget⟩ := kind?_eq_file.mp hfile
    rw [h.get?_of_some hget, hget]

theorem of_rewritten (h : Log.Rewritten logs files after) : Spared made opened logs files after :=
  ⟨h.start_eq, fun loc hdir => (h.kind?_eq loc).trans hdir, fun loc _ => .inl (h.kind?_eq loc),
    fun loc _ hlog _ => h.get?_eq loc hlog⟩

-- Other files than those that are opened stay when one of these is changed or taken away.
theorem of_place {place : Location} (hopened : opened place) (hstart : after.start = files.start)
    (hdir : files.kind? place = some .directory → after.kind? place = some .directory)
    (hget : ∀ loc, place ≠ loc → after.get? loc = files.get? loc) :
    Spared made opened logs files after := by
  have haway {loc : Location} (hloc : ¬ opened loc) : place ≠ loc := by
    rintro rfl
    exact hloc hopened
  refine ⟨hstart, fun loc hloc => ?_, fun loc hloc => .inl ?_, fun loc hloc _ _ => ?_⟩
  · by_cases hplace : place = loc
    · exact hplace ▸ hdir (hplace ▸ hloc)
    · rw [kind?, hget loc hplace]
      exact hloc
  · rw [kind?, kind?, hget loc (haway hloc)]
  · exact hget loc (haway hloc)

theorem of_openFile {p : Text} {place : Location}
    (h : files.openFile p true = .ok (place, after)) (hopened : opened place) :
    Spared made opened logs files after := by
  obtain ⟨-, -, rfl, hkind, -⟩ := openFile_ok h
  exact of_place hopened rfl (fun hdir => absurd hdir hkind)
    fun loc hloc => get?_set_of_ne hloc _ _

theorem of_overwriteStart {place : Location} (hopened : opened place) (octets : Bytes) :
    Spared made opened logs files (files.overwriteStart place octets) := by
  refine of_place hopened (start_overwriteStart _ _ _) (fun hdir => ?_) fun loc hloc => ?_
  · rw [kind?_overwriteStart, hdir]
  · rw [get?_overwriteStart, if_neg hloc]

theorem of_removeFile {p : Text} (h : files.removeFile p = .ok after)
    (hopened : opened (Path.target files.start p)) : Spared made opened logs files after := by
  obtain ⟨hfile, rfl⟩ := removeFile_ok h
  refine of_place hopened rfl (fun hdir => ?_) fun loc hloc => ?_
  · rw [hfile] at hdir
    simp at hdir
  · exact get?_erase_of_ne hloc _

end Spared
end FileTree

namespace Fetch

/-! ## 2. Locations that may be opened -/

/-- A fetch that begins with the given files may open a copy at a location: it is the place of a
copy, where its path leads down to and the path of its directory does not, and without overwriting no
file is there. -/
def Job.MayOpen (job : Job) (files : FileTree) (loc : Location) : Prop :=
  ∃ key ∈ job.backend.keys, job.place files.start key = loc ∧
    (loc ∈ Path.trail files.start (job.localPath key) ∧
      loc ∉ Path.trail files.start (job.localCopy key).directory) ∧
    (job.options.overwrite = false → files.kind? loc ≠ some .file)

/-- A world that a fetch has come to, whatever it has done since it began. -/
structure Sparing (job : Job) (base world : World) : Prop where
  files : FileTree.Spared (job.LeadsThrough base.files.start) (job.MayOpen base.files)
    base.log.places base.files world.files
  log_eq : world.log = base.log

/-- A transfer whose file may be opened, and whose path leads to that file. -/
structure Exposed (job : Job) (files : FileTree) (t : Transfer) : Prop where
  mayOpen : job.MayOpen files t.place
  place_eq : Path.target files.start t.path = t.place

section Sparing

variable {job : Job} {base world after : World} {mapping next : Mapping} {key : Text}
  {keys : List Text} {t : Transfer} {transfers : List Transfer}

theorem Sparing.refl (job : Job) (world : World) : Sparing job world world :=
  ⟨.refl _ _ _ _, rfl⟩

theorem Sparing.spared (h : Sparing job base world)
    (hfiles : FileTree.Spared (job.LeadsThrough base.files.start) (job.MayOpen base.files)
      base.log.places world.files after.files) (hlog : after.log = world.log) :
    Sparing job base after :=
  ⟨h.files.trans hfiles, hlog.trans h.log_eq⟩

theorem Sparing.alike (h : Sparing job base world) (halike : World.Alike world after) :
    Sparing job base after :=
  h.spared (.of_rewritten (h.log_eq ▸ halike.files)) halike.log_eq

/-! ## 3. Looking at keys -/

theorem Sparing.begun (h : Sparing job base world) (hkey : key ∈ job.backend.keys) :
    Sparing job base (begun job key world) := by
  refine h.spared (.of_grown (begun_grown job key world) fun loc hloc => ⟨key, hkey, ?_⟩) rfl
  rwa [← h.files.start_eq]

-- A file is opened at a place that may be opened.
theorem Sparing.mayOpen (h : Sparing job base world) (hkey : key ∈ job.backend.keys)
    {place : Location} {made : FileTree}
    (hopen : world.files.openFile (job.localPath key) true = .ok (place, made))
    (hnew : job.options.overwrite = false → world.files.pathExists (job.localPath key) = false) :
    job.MayOpen base.files place := by
  have hstart := h.files.start_eq
  obtain ⟨hplace, hmem, hmade, -, -⟩ := FileTree.openFile_ok hopen
  have hopened := Opened.of_openFile hopen key
  rw [hstart] at hplace hmem
  refine ⟨key, hkey, hplace.symm, ⟨hmem, fun htrail => ?_⟩, fun hkeep hfile => ?_⟩
  · have hmadeStart : made.start = base.files.start := by rw [hmade, ← hstart]; rfl
    have hdir := FileTree.directories_of_locate hopened.locate_eq (Path.fileName_no_slash _) place
      (hmadeStart ▸ htrail)
    rw [hopened.kind?_eq] at hdir
    simp at hdir
  · -- A file that was there before the fetch is still there, and its path would lead to it.
    have hspared : ¬ job.MayOpen base.files place := by
      rintro ⟨-, -, -, -, hfree⟩
      exact hfree hkeep hfile
    have hthere := (h.files.file_iff hspared).mpr hfile
    have hnone := FileTree.get?_of_openFile_new hopen (hnew hkeep)
    rw [FileTree.kind?_eq_none.mpr hnone] at hthere
    simp at hthere

theorem Looked.sparing (hlooked : Looked job mapping key world next after)
    (h : Sparing job base world) (hkey : key ∈ job.backend.keys)
    (hexposed : ∀ t ∈ mapping.transfers, Exposed job base.files t) :
    Sparing job base after ∧ ∀ t ∈ next.transfers, Exposed job base.files t := by
  have hbegun := h.begun hkey
  cases hlooked with
  | passedOver message hmade hthere hkeep => exact ⟨hbegun.alike (.record _ _), hexposed⟩
  | opened hmade hopen hnew =>
    have hmayOpen := hbegun.mayOpen hkey hopen hnew
    refine ⟨hbegun.spared (.of_openFile hopen hmayOpen) rfl, fun t ht => ?_⟩
    rcases List.mem_append.mp ht with ht | ht
    · exact hexposed t ht
    · rw [List.mem_singleton.mp ht]
      refine ⟨hmayOpen, ?_⟩
      rw [(FileTree.openFile_ok hopen).1, hbegun.files.start_eq]

theorem Surveyed.sparing (hsurveyed : Surveyed job keys mapping world next after)
    (h : Sparing job base world) (hkeys : ∀ key ∈ keys, key ∈ job.backend.keys)
    (hexposed : ∀ t ∈ mapping.transfers, Exposed job base.files t) :
    Sparing job base after ∧ ∀ t ∈ next.transfers, Exposed job base.files t := by
  induction hsurveyed with
  | nil => exact ⟨h, hexposed⟩
  | cons hfirst hrest ih =>
    obtain ⟨hbetween, hexposed⟩ := hfirst.sparing h (hkeys _ List.mem_cons_self) hexposed
    exact ih hbetween (fun key hkey => hkeys key (List.mem_cons_of_mem _ hkey)) hexposed

/-! ## 4. The batch -/

theorem Sparing.close (h : Sparing job base world) (ht : Exposed job base.files t) :
    Sparing job base { world with files := t.close world.files } := by
  refine h.spared ?_ rfl
  unfold Transfer.close
  split
  · exact .refl _ _ _ _
  · exact .of_overwriteStart ht.mayOpen _

theorem Sparing.closeAll (h : Sparing job base world)
    (hexposed : ∀ t ∈ transfers, Exposed job base.files t) :
    Sparing job base { world with files := closeAll transfers world.files } := by
  induction transfers with
  | nil => exact h
  | cons t rest ih =>
    have hrest := ih fun s hs => hexposed s (List.mem_cons_of_mem _ hs)
    exact hrest.close (hexposed t List.mem_cons_self)

theorem Sparing.remove (h : Sparing job base world) (ht : Exposed job base.files t) :
    Sparing job base ((remove t).runIn world).2 := by
  have hclosed := h.close ht
  simp only [Fetch.remove, Action.runIn_bind, Action.runIn_files]
  split
  · rename_i after hremove
    have hplace : job.MayOpen base.files (Path.target (t.close world.files).start t.path) := by
      rw [show (t.close world.files).start = base.files.start from hclosed.files.start_eq,
        ht.place_eq]
      exact ht.mayOpen
    have hremoved : Sparing job base { world with files := after } :=
      hclosed.spared (.of_removeFile hremove hplace) rfl
    exact hremoved.alike (.record _ _)
  · simp only [Action.runIn_bind, Action.runIn_setFiles]
    split
    · exact hclosed.alike (.record _ _)
    · exact hclosed
  · exact hclosed

theorem Sparing.discard (h : Sparing job base world)
    (hexposed : ∀ t ∈ transfers, Exposed job base.files t) :
    Sparing job base ((discard transfers).runIn world).2 := by
  induction transfers generalizing world with
  | nil => exact h
  | cons t rest ih =>
    have hrest : ∀ s ∈ rest, Exposed job base.files s :=
      fun s hs => hexposed s (List.mem_cons_of_mem _ hs)
    simp only [Fetch.discard, Action.runIn_bind, Action.runIn_ticks]
    split
    · exact ih h hrest
    · exact h
    · have hremoved := h.remove (hexposed t List.mem_cons_self)
      simp only [Action.runIn_bind]
      rcases hrun : (Fetch.remove t).runIn world with ⟨failure | _, between⟩
      · rw [hrun] at hremoved
        exact hremoved
      · rw [hrun] at hremoved
        exact ih hremoved hrest

theorem Sparing.submitted (h : Sparing job base world) (cloud : Cloud) (bucket : Text)
    (hexposed : ∀ t ∈ transfers, Exposed job base.files t) :
    Sparing job base { world with files := submitted cloud bucket transfers world.files } := by
  induction transfers generalizing world with
  | nil => exact h
  | cons t rest ih =>
    rw [Fetch.submitted]
    split
    · exact h
    · have hwritten : Sparing job base { world with
          files := world.files.overwriteStart t.place
            (writtenAtOnce (cloud.transfer bucket t.key).body) } :=
        h.spared (.of_overwriteStart (hexposed t List.mem_cons_self).mayOpen _) rfl
      exact ih hwritten fun s hs => hexposed s (List.mem_cons_of_mem _ hs)

theorem exposed_sentOf (cloud : Cloud) (bucket : Text)
    (hexposed : ∀ t ∈ transfers, Exposed job base.files t) :
    ∀ t ∈ (sentOf cloud bucket transfers).1, Exposed job base.files t := by
  intro s hs
  obtain ⟨t, ht, hpath, hplace⟩ := mem_sentOf cloud bucket hs
  obtain ⟨hmayOpen, hplace_eq⟩ := hexposed t ht
  exact ⟨hplace ▸ hmayOpen, by rw [hpath, hplace, hplace_eq]⟩

theorem Sparing.of_eq (h : Sparing job base world) (hfiles : after.files = world.files)
    (hlog : after.log = world.log) : Sparing job base after :=
  ⟨hfiles ▸ h.files, hlog.trans h.log_eq⟩

-- However a download ends, it writes to the files of its transfers and removes some of them.
theorem download_sparing (cloud : Cloud) (factory : Factory) (cancelAt : Option Nat)
    (h : Sparing job base world) (hexposed : ∀ t ∈ transfers, Exposed job base.files t) :
    Sparing job base ((download cloud factory job cancelAt transfers).runIn
      (announced job transfers world)).2 := by
  have hsent := exposed_sentOf cloud job.backend.bucket hexposed
  rcases hrun : (download cloud factory job cancelAt transfers).runIn
    (announced job transfers world) with ⟨failure | u, after⟩
  · rcases download_error hrun with ⟨problem, between, hconnect, rfl⟩ |
      ⟨connection, between, waited, hconnect, hwaited, hwaitedLog, hafter, hlog, -⟩
    · exact (h.alike (connecting_alike hconnect)).discard hexposed
    · have hsubmitted := (h.alike (connecting_alike hconnect)).submitted cloud job.backend.bucket
        hexposed
      have hdiscarded := (hsubmitted.of_eq hwaited hwaitedLog).discard hsent
      exact (hdiscarded.closeAll hsent).of_eq hafter
        (hlog.trans (discard_quiet _ waited).1.symm)
  · obtain ⟨connection, between, hconnect, -, hafter, hlog⟩ := download_ok hrun
    have hsubmitted := (h.alike (connecting_alike hconnect)).submitted cloud job.backend.bucket
      hexposed
    exact (hsubmitted.closeAll hsent).of_eq hafter hlog

end Sparing

/-! ## 5. The whole fetch -/

/-- **However a fetch ends, it spares** every file that stands at no place of a copy, and without
overwriting every file that was there. -/
theorem fetch_sparing (cloud : Cloud) (factory : Factory) (cancelAt : Option Nat) (job : Job)
    (world : World) : Sparing job world ((fetch cloud factory cancelAt job).runIn world).2 := by
  obtain ⟨seen, hseen, hsurveyed⟩ := survey_surveyed job .empty world job.backend.keys
  have hkeys : ∀ key ∈ seen, key ∈ job.backend.keys := by
    intro key hkey
    rw [hseen]
    exact List.mem_append_left _ hkey
  -- The keys that were looked at are spared whether one of the others fails or not.
  obtain ⟨hfound, hexposed⟩ := hsurveyed.sparing (.refl job world) hkeys (by simp [Mapping.empty])
  rcases hrun : (fetch cloud factory cancelAt job).runIn world with ⟨failure | outcome, after⟩
  · rcases fetch_error hrun with hfails | ⟨mapping, between, hmapped, hdownload⟩
    · obtain ⟨key, rest, hleft, hkey⟩ := mapKeys_error hfails
      have hmem : key ∈ job.backend.keys := by
        rw [hseen, hleft]
        simp
      have hbegun := hfound.begun hmem
      rcases mapKey_error hkey with ⟨-, rfl⟩ | ⟨-, rfl⟩
      · exact hbegun
      · exact hbegun.discard hexposed
    · rw [mapKeys_ok hmapped] at hfound hexposed
      have hdownloaded := download_sparing cloud factory cancelAt hfound hexposed
      rwa [hdownload] at hdownloaded
  · obtain ⟨mapping, between, last, hsurveyed, -, hlast, hdownload⟩ := fetch_inv hrun
    obtain ⟨hfound, hexposed⟩ := hsurveyed.sparing (.refl job world) (fun _ h => h)
      (by simp [Mapping.empty])
    rcases hdownload with ⟨-, rfl⟩ | ⟨u, hdownload⟩
    · exact hfound.alike hlast
    · have hdownloaded := download_sparing cloud factory cancelAt hfound hexposed
      rw [hdownload] at hdownloaded
      exact hdownloaded.alike hlast

end Fetch
end StateOwnership
