import StateOwnership.Proofs.Cache.Pulling

/-!
# Whose body a mapped file holds

After a pull every path is mapped to the last listed object whose copy goes there. **The file at the
path holds the body of that object exactly if the object wins its location**: with overwriting, if
the bodies that the last fetch with keys there lays over each other give its body; without it, if its
body was there before, or nothing was and its body is the first that belongs there.
-/

namespace StateOwnership.Cache

/-! ## 1. Listed objects -/

/-- An object that a configuration lists: the key and the fetch that it belongs to. -/
structure Listed where
  job : Fetch.Job
  key : Text
  deriving DecidableEq

namespace Listed

def path (x : Listed) : Text := x.job.localPath x.key

def owner (x : Listed) : Text := x.job.backend.reference x.key

/-- The location of an object's copy, if relative paths start at `start`. -/
def place (x : Listed) (start : Location) : Location := x.job.place start x.key

def body (cloud : Cloud) (x : Listed) : Bytes := x.job.body cloud x.key

def ofJobs (jobs : List Fetch.Job) : List Listed :=
  jobs.flatMap fun job => job.backend.keys.map (⟨job, ·⟩)

end Listed

def listed (cache : Cache) : List Listed := Listed.ofJobs cache.jobs

/-- The object that a path is mapped to: the last one listed whose copy goes there. -/
def named (cache : Cache) (path : Text) : Option Listed :=
  (cache.listed.filter (·.path = path)).getLast?

theorem Listed.mem_ofJobs {jobs : List Fetch.Job} {x : Listed} :
    x ∈ Listed.ofJobs jobs ↔ x.job ∈ jobs ∧ x.key ∈ x.job.backend.keys := by
  simp only [ofJobs, List.mem_flatMap, List.mem_map]
  constructor
  · rintro ⟨job, hjob, key, hkey, rfl⟩
    exact ⟨hjob, hkey⟩
  · rintro ⟨hjob, hkey⟩
    exact ⟨x.job, hjob, x.key, hkey, rfl⟩

-- The owners of fetches are those of the objects that they list, one after the other.
theorem ownersAfter_eq_insertAll (filenames : OrderedMap Text Text) (jobs : List Fetch.Job) :
    ownersAfter filenames jobs =
      filenames.insertAll ((Listed.ofJobs jobs).map fun x => (x.path, x.owner)) := by
  induction jobs generalizing filenames with
  | nil => rfl
  | cons job rest ih =>
    have hrest : ownersAfter filenames (job :: rest) =
        ownersAfter (filenames.union job.filenames) rest := rfl
    have hlist : Listed.ofJobs (job :: rest) =
        job.backend.keys.map (Listed.mk job) ++ Listed.ofJobs rest := rfl
    rw [hrest, ih, Fetch.Job.filenames, OrderedMap.union_ofList, hlist, List.map_append,
      List.map_map, OrderedMap.insertAll, OrderedMap.insertAll, OrderedMap.insertAll,
      List.foldl_append]
    rfl

theorem configured_eq_ofList (cache : Cache) :
    cache.configured = OrderedMap.ofList (cache.listed.map fun x => (x.path, x.owner)) := by
  rw [configured_eq, ownersAfter_eq_insertAll]
  rfl

-- Every path is mapped to the owner that is named.
theorem get?_configured (cache : Cache) (path : Text) :
    cache.configured.get? path = (cache.named path).map Listed.owner := by
  rw [configured_eq_ofList, OrderedMap.ofList, OrderedMap.get?_insertAll, OrderedMap.get?_empty,
    Option.or_none, List.filter_map, List.getLast?_map, Option.map_map]
  rfl

/-! ## 2. Winning a location -/

/-- An object wins its location: if copies are overwritten, the bodies that the last fetch with keys
there lays over each other give its body; otherwise its body was there before, or nothing was, no
directory of a copy leads through the location, and its body is the first that belongs there. -/
def Wins (cloud : Cloud) (jobs : List Fetch.Job) (files : FileTree) (x : Listed) : Prop :=
  if x.job.options.overwrite then
    ((jobs.map (·.bodiesAt cloud files.start (x.place files.start))).filter
      (· ≠ [])).getLast?.map Fetch.layered = some (x.body cloud)
  else
    files.get? (x.place files.start) = some (.file (x.body cloud)) ∨
      files.get? (x.place files.start) = none ∧
        (∀ job ∈ jobs, ¬ job.LeadsThrough files.start (x.place files.start)) ∧
        (jobs.flatMap (·.bodiesAt cloud files.start (x.place files.start))).head? =
          some (x.body cloud)

instance (cloud : Cloud) (jobs : List Fetch.Job) (files : FileTree) (x : Listed) :
    Decidable (Wins cloud jobs files x) := by
  unfold Wins
  infer_instance

section Winning

variable {cloud : Cloud} {jobs : List Fetch.Job} {world after : World} {x : Listed}

-- After fetches in a row, the location of an object holds its body exactly if the object wins.
theorem get?_iff_wins (h : SettlesAll cloud jobs world after)
    (hsame : ∀ job ∈ jobs, job.options.overwrite = x.job.options.overwrite)
    (hjob : x.job ∈ jobs) (hkey : x.key ∈ x.job.backend.keys)
    (hlog : x.place world.files.start ∉ world.log.places) :
    after.files.get? (x.place world.files.start) = some (.file (x.body cloud)) ↔
      Wins cloud jobs world.files x := by
  have hhere : x.job.keysAt world.files.start (x.place world.files.start) ≠ [] := by
    have hmem : x.key ∈ x.job.keysAt world.files.start (x.place world.files.start) := by
      simp [Fetch.Job.keysAt, hkey, Listed.place]
    exact List.ne_nil_of_mem hmem
  rw [Wins]
  cases hover : x.job.options.overwrite with
  | true =>
    rw [if_pos rfl, h.get?_of_overwrite (fun job hmem => (hsame job hmem).trans hover) hlog
      ⟨x.job, hjob, hhere⟩]
    cases ((jobs.map (·.bodiesAt cloud world.files.start (x.place world.files.start))).filter
      (· ≠ [])).getLast? <;> simp
  | false =>
    have hkeep : ∀ job ∈ jobs, job.options.overwrite = false :=
      fun job hmem => (hsame job hmem).trans hover
    rw [if_neg (by simp)]
    cases hbefore : world.files.get? (x.place world.files.start) with
    | some entry =>
      rw [h.get?_of_some hkeep hlog hbefore]
      simp
    | none =>
      -- A directory that some copy leads through was made before its file could be opened.
      by_cases hthrough : ∃ job ∈ jobs,
          job.LeadsThrough world.files.start (x.place world.files.start)
      · obtain ⟨job, hmem, hleads⟩ := hthrough
        rw [h.leadsThrough hmem hleads]
        simp only [Option.some.injEq, reduceCtorEq, false_or, true_and, false_iff, not_and]
        intro haway
        exact absurd hleads (haway job hmem)
      · have haway : ∀ job ∈ jobs,
            ¬ job.LeadsThrough world.files.start (x.place world.files.start) :=
          fun job hmem hleads => hthrough ⟨job, hmem, hleads⟩
        rw [h.get?_of_none hkeep hlog hbefore haway]
        simp only [Option.map_eq_some_iff, FileTree.Entry.file.injEq, exists_eq_right, reduceCtorEq,
          true_and, false_or]
        exact ⟨fun hfirst => ⟨haway, hfirst⟩, fun hboth => hboth.2⟩

-- Winning depends on what is at the location of the copy alone, and on where paths start.
theorem wins_congr {files other : FileTree} (hstart : other.start = files.start)
    (hget : other.get? (x.place files.start) = files.get? (x.place files.start)) :
    Wins cloud jobs other x ↔ Wins cloud jobs files x := by
  rw [Wins, Wins, hstart, hget]

end Winning

/-! ## 3. After a pull -/

theorem options_of_mem_jobs {cache : Cache} {job : Fetch.Job} (h : job ∈ cache.jobs) :
    job.options = cache.config.effectiveOptions := by
  obtain ⟨backend, -, rfl⟩ := List.mem_map.mp h
  rfl

section Pulls

variable {cloud : Cloud} {factory : Fetch.Factory} {cancelAt : Option Nat} {schedule : Schedule}
  {cache : Cache} {world : World}

-- After a pull that succeeds, the path of every listed object leads to the location of its copy,
-- and its copy holds its body exactly if the object wins that location.
theorem pulled_copies {after : Cache} {final : World} {outcomes : List Fetch.Outcome}
    (hvalid : cache.config.check = .ok ()) (hroot : world.files.Rooted)
    (horder : cache.workers ≠ 1 →
      schedule.order.Perm (List.range cache.config.backends.length))
    (hrun : (pull cloud factory cancelAt schedule).runOn cache world =
      (.ok outcomes, after, final)) :
    final.log = world.log ∧ ∀ x ∈ cache.listed,
      final.files.locate x.path = .ok (x.place world.files.start) ∧
        (x.place world.files.start ∉ world.log.places →
          (final.files.read x.path = .ok (x.body cloud) ↔
            Wins cloud (ended cache.workers schedule cache.jobs) world.files x)) := by
  obtain ⟨before, pulled, hbefore, hsettles, hafter⟩ := pull_ok hvalid hroot hrun
  have hlogs : pulled.log = world.log := hsettles.log_eq.trans hbefore.log_eq
  refine ⟨hafter.log_eq.trans hlogs, fun x hx => ?_⟩
  obtain ⟨hjob, hkey⟩ := Listed.mem_ofJobs.mp hx
  have hperm := ended_jobs_perm horder
  have hstart := hbefore.files.start_eq
  -- The path still leads to its place when the pull is over.
  obtain ⟨hcheck, hlocate⟩ := hsettles.reached x.job (hperm.mem_iff.mpr hjob) x.key hkey
  rw [hstart] at hlocate
  have hplace := hafter.kept.locate hlocate
  refine ⟨hplace, fun hlog => ?_⟩
  have hwins := get?_iff_wins (x := x) hsettles
    (fun job hmem => by
      rw [options_of_mem_jobs (hperm.mem_iff.mp hmem), options_of_mem_jobs hjob])
    (hperm.mem_iff.mpr hjob) hkey (by rwa [hstart, hbefore.log_eq])
  rw [wins_congr hstart (hbefore.files.get?_eq _ hlog), hstart,
    ← hafter.files.get?_eq _ (hlogs ▸ hlog)] at hwins
  rw [← hwins]
  exact FileTree.read_iff hcheck hplace

/-- **After a pull that succeeds, every path is mapped to the last listed object whose copy goes
there, and holds the body of that object if and only if the object wins its location.** -/
theorem attribution_iff (hvalid : cache.config.check = .ok ()) (hroot : world.files.Rooted)
    (horder : cache.workers ≠ 1 →
      schedule.order.Perm (List.range cache.config.backends.length))
    (hpull : ((pull cloud factory cancelAt schedule).runOn cache world).1.toBool = true) :
    (∀ path, ((pull cloud factory cancelAt schedule).runOn cache world).2.1.filenames.get? path =
        (cache.named path).map Listed.owner) ∧
      ∀ path x, cache.named path = some x → x.place world.files.start ∉ world.log.places →
        (((pull cloud factory cancelAt schedule).runOn cache world).2.2.files.read path =
            .ok (x.body cloud) ↔
          Wins cloud (ended cache.workers schedule cache.jobs) world.files x) := by
  rcases hrun : (pull cloud factory cancelAt schedule).runOn cache world with
    ⟨failure | outcomes, after, final⟩
  · rw [hrun] at hpull
    simp [Except.toBool] at hpull
  obtain rfl := pull_cache hvalid horder hrun
  obtain ⟨-, hcopies⟩ := pulled_copies hvalid hroot horder hrun
  refine ⟨fun path => ?_, fun path x hnamed hlog => ?_⟩
  · exact get?_configured cache path
  · have hmem := List.mem_filter.mp (List.mem_of_getLast? hnamed)
    have hpath : x.path = path := by simpa using hmem.2
    rw [← hpath]
    exact (hcopies x hmem.1).2 hlog

end Pulls

/-- A cache in the directory `d` of keys of the bucket `b`. -/
def sampleCache (keys : List Text) (overwrite : Bool) : Cache :=
  .make ⟨"d", some ⟨[], overwrite, []⟩, [⟨"b", keys, [], [], [], []⟩]⟩ true 1

/-- The copies of different keys hold what their keys' objects hold. -/
theorem attribution_of_different_paths :
    let run := (pull spellingCloud .standard none (.inOrder 1)).runOn
      (sampleCache ["a", "c"] false) sampleWorld
    run.1.toBool = true ∧ run.2.1.filenames.get? "d/b/c" = some "arn:aws:s3:::b/c" ∧
      run.2.2.files.read "d/b/c" = .ok [0x63] := by
  have hpull : ((pull spellingCloud .standard none (.inOrder 1)).runOn
      (sampleCache ["a", "c"] false) sampleWorld).1.toBool = true := by decide +kernel
  obtain ⟨hnames, hreads⟩ := attribution_iff rfl rooted_sampleWorld (fun _ => .refl _) hpull
  refine ⟨hpull, (hnames _).trans (by decide +kernel), ?_⟩
  exact (hreads "d/b/c" ⟨(sampleCache ["a", "c"] false).job ⟨"b", ["a", "c"], [], [], [], []⟩, "c"⟩
    (by decide +kernel) (by decide +kernel)).mpr (by decide +kernel)

/-- **The copy of `a` is taken for that of `/a`**: both go to one path, the first is downloaded, and
the path is mapped to the second. -/
theorem misattribution_of_equal_paths :
    let run := (pull spellingCloud .standard none (.inOrder 1)).runOn
      (sampleCache ["a", "/a"] false) sampleWorld
    run.1.toBool = true ∧ run.2.1.filenames.get? "d/b/a" = some "arn:aws:s3:::b//a" ∧
      ¬ ∀ path x, (sampleCache ["a", "/a"] false).named path = some x →
        run.2.2.files.read path = .ok (x.body spellingCloud) := by
  refine ⟨by decide +kernel, by decide +kernel, fun hall => ?_⟩
  have hread := hall "d/b/a"
    ⟨(sampleCache ["a", "/a"] false).job ⟨"b", ["a", "/a"], [], [], [], []⟩, "/a"⟩
    (by decide +kernel)
  have hbody : ((pull spellingCloud .standard none (.inOrder 1)).runOn
      (sampleCache ["a", "/a"] false) sampleWorld).2.2.files.read "d/b/a" = .ok [0x61] := by rfl
  rw [hbody] at hread
  exact absurd (Except.ok.inj hread) (by decide)

end StateOwnership.Cache
