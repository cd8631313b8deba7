import Mathlib.Data.List.Nodup
import StateOwnership.Proofs.Cache.Attribution
import StateOwnership.Proofs.Cache.Loading

/-!
# Who owns a resource

When the copies of listed objects stand apart, every copy holds the body of its object after a pull.
**An index built then gives every id to the last listed object whose body yields it.**
-/

namespace StateOwnership.Cache

/-! ## 1. Objects whose copies stand apart -/

-- Of the items of a list with different values, one alone has the value of a given item.
theorem filter_of_nodup_map {α β : Type} [DecidableEq α] [DecidableEq β] {f : α → β} {l : List α}
    (hnodup : (l.map f).Nodup) {x : α} (hx : x ∈ l) : l.filter (f · = f x) = [x] := by
  have hsame : l.filter (f · = f x) = l.filter (· = x) := by
    apply List.filter_congr
    intro y hy
    simp only [decide_eq_decide]
    exact ⟨fun heq => List.inj_on_of_nodup_map hnodup hy hx heq, fun heq => heq ▸ rfl⟩
  rw [hsame, List.filter_eq, List.count_eq_one_of_mem hnodup.of_map hx]
  rfl

section Apart

variable {cloud : Cloud} {jobs : List Fetch.Job} {start : Location} {files : FileTree} {x : Listed}

-- The bodies that belong at a location are those of the objects whose copies stand there.
theorem flatMap_bodiesAt (cloud : Cloud) (jobs : List Fetch.Job) (start loc : Location) :
    jobs.flatMap (·.bodiesAt cloud start loc) =
      ((Listed.ofJobs jobs).filter (·.place start = loc)).map (·.body cloud) := by
  rw [Listed.ofJobs, List.filter_flatMap, List.map_flatMap]
  refine List.flatMap_congr fun job _ => ?_
  rw [Fetch.Job.bodiesAt, Fetch.Job.keysAt, List.filter_map, List.map_map]
  rfl

theorem flatMap_bodiesAt_of_nodup (cloud : Cloud)
    (hnodup : ((Listed.ofJobs jobs).map (·.place start)).Nodup) (hx : x ∈ Listed.ofJobs jobs) :
    jobs.flatMap (·.bodiesAt cloud start (x.place start)) = [x.body cloud] := by
  rw [flatMap_bodiesAt, filter_of_nodup_map hnodup hx, List.map_singleton]

-- An object whose copy stands alone wins its location.
theorem wins_of_nodup (hnodup : ((Listed.ofJobs jobs).map (·.place files.start)).Nodup)
    (hx : x ∈ Listed.ofJobs jobs)
    (hfree : x.job.options.overwrite = false → files.get? (x.place files.start) = none ∧
      ∀ job ∈ jobs, ¬ job.LeadsThrough files.start (x.place files.start)) :
    Wins cloud jobs files x := by
  have hbodies := flatMap_bodiesAt_of_nodup cloud hnodup hx
  rw [Wins]
  split
  · rw [List.flatMap_def, List.flatten_eq_singleton_iff] at hbodies
    obtain ⟨before, behind, hsplit, hbefore, hbehind⟩ := hbodies
    have hnone : ∀ lists : List (List Bytes), (∀ bodies ∈ lists, bodies = []) →
        lists.filter (· ≠ []) = [] := by
      intro lists hempty
      rw [List.filter_eq_nil_iff]
      intro bodies hmem
      simp [hempty bodies hmem]
    rw [hsplit, List.filter_append, hnone before hbefore, List.filter_cons_of_pos (by simp),
      hnone behind hbehind]
    simp [Fetch.layered_singleton]
  · rename_i hkeep
    obtain ⟨hnew, haway⟩ := hfree (by simpa using hkeep)
    exact .inr ⟨hnew, haway, by rw [hbodies]; rfl⟩

end Apart

-- Paths with different names are mapped in the order in which their objects are listed.
theorem entries_configured {cache : Cache} (hnodup : (cache.listed.map Listed.path).Nodup) :
    cache.configured.entries = cache.listed.map fun x => (x.path, x.owner) := by
  rw [configured_eq_ofList, OrderedMap.entries_ofList]
  rwa [List.map_map]

/-- The copies of a cache stand apart: no two share a location, nothing is at the locations, and
unless copies are overwritten no directory of a copy leads through one, its own included: with the
key `a/../a` a directory is made where the copy goes, and is taken for the copy. -/
structure Apart (cache : Cache) (files : FileTree) : Prop where
  different : (cache.listed.map (·.place files.start)).Nodup
  free : ∀ x ∈ cache.listed, files.get? (x.place files.start) = none
  untraversed : cache.config.effectiveOptions.overwrite = false → ∀ x ∈ cache.listed,
    ∀ job ∈ cache.jobs, ¬ job.LeadsThrough files.start (x.place files.start)

namespace Apart

variable {cloud : Cloud} {cache : Cache} {files : FileTree} {schedule : Schedule}

-- Copies at different locations have different paths.
theorem paths_nodup (h : Apart cache files) : (cache.listed.map Listed.path).Nodup := by
  refine List.Nodup.of_map (Path.target files.start) ?_
  rw [List.map_map]
  exact h.different

-- Every object whose copy stands apart wins its location, in whatever order fetches end.
theorem wins (h : Apart cache files)
    (horder : cache.workers ≠ 1 →
      schedule.order.Perm (List.range cache.config.backends.length))
    {x : Listed} (hx : x ∈ cache.listed) :
    Wins cloud (ended cache.workers schedule cache.jobs) files x := by
  have hperm := ended_jobs_perm horder
  have hlisted : (Listed.ofJobs (ended cache.workers schedule cache.jobs)).Perm cache.listed :=
    hperm.flatMap_right _
  refine wins_of_nodup ((hlisted.map _).nodup_iff.mpr h.different) (hlisted.mem_iff.mpr hx) ?_
  intro hkeep
  rw [options_of_mem_jobs (Listed.mem_ofJobs.mp hx).1] at hkeep
  exact ⟨h.free x hx, fun job hjob => h.untraversed hkeep x hx job (hperm.mem_iff.mp hjob)⟩

end Apart

/-! ## 2. Indexes that are built -/

def Listed.decoded (cloud : Cloud) (arnless : List Text) (x : Listed) :
    Except State.Fault (List State.Descriptor) :=
  State.decodeBytes arnless (x.body cloud)

theorem yields_mapError {ε ε' : Type} (f : ε → ε') (id : Text)
    (result : Except ε (List State.Descriptor)) :
    State.yields id (result.mapError f) = State.yields id result := by
  cases result <;> rfl

-- Loading copies that hold the bodies of their objects gives every id to the last object whose body
-- yields it, and lists every copy by whether that body decodes.
theorem inventory_of_copies {cloud : Cloud} {files : FileTree} {arnless : List Text}
    {listed : List Listed} {loading : Loading} {now : DateTime}
    (hcopies : ∀ x ∈ listed, files.read x.path = .ok (x.body cloud))
    (hnodup : (listed.map Listed.path).Nodup)
    (h : Loading.none.takeAll files arnless (listed.map fun x => (x.path, x.owner)) =
      .ok loading) :
    (∀ id, (loading.inventory now).index.lookup id =
        (listed.filter fun x => State.yields id (x.decoded cloud arnless)).getLast?.map
          Listed.owner) ∧
      (loading.inventory now).filesLoaded =
        (listed.filter fun x => (x.decoded cloud arnless).toBool).map Listed.path ∧
      (loading.inventory now).skipped.keys =
        (listed.filter fun x => !(x.decoded cloud arnless).toBool).map Listed.path := by
  have hfile : ∀ x ∈ listed, State.ofFile files arnless x.path =
      (x.decoded cloud arnless).mapError (State.decodeFailure x.path) :=
    fun x hx => State.ofFile_of_read (hcopies x hx) arnless
  have hdecodes : ∀ x ∈ listed, (State.ofFile files arnless x.path).toBool =
      (x.decoded cloud arnless).toBool :=
    fun x hx => by rw [hfile x hx, toBool_mapError]
  refine ⟨fun id => ?_, ?_, ?_⟩
  · have hyields : ∀ x ∈ listed, State.yields id (State.ofFile files arnless x.path) =
        State.yields id (x.decoded cloud arnless) :=
      fun x hx => by rw [hfile x hx, yields_mapError]
    have hget := get?_of_takeAll h id
    rw [List.filter_map, List.getLast?_map, Option.map_map] at hget
    rw [← List.filter_congr hyields]
    exact hget.trans Option.or_none
  · have hloaded := filesLoaded_of_takeAll h
    rw [List.filter_map, List.map_map] at hloaded
    rw [← List.filter_congr hdecodes]
    exact hloaded
  · have hskipped := skipped_of_takeAll h (by rw [List.map_map]; exact hnodup)
    rw [List.filter_map, List.map_map] at hskipped
    rw [← List.filter_congr fun x hx => congrArg Bool.not (hdecodes x hx)]
    exact hskipped

section Building

variable {cloud : Cloud} {factory : Fetch.Factory} {cancelAt : Option Nat} {schedule : Schedule}
  {now : DateTime} {cache : Cache} {world : World} {inventory : Inventory}

/-- **When the copies stand apart and no file of the log is missing, an index that is built gives
every id to the last listed object whose body yields it**, and lists the copies that decode and those
that do not in the order of their objects. -/
theorem ownership_of_built (hvalid : cache.config.check = .ok ()) (hroot : world.files.Rooted)
    (horder : cache.workers ≠ 1 →
      schedule.order.Perm (List.range cache.config.backends.length))
    (hlog : world.log.Opened world.files) (hapart : Apart cache world.files)
    (hbuild : ((buildIndex cloud factory cancelAt schedule now).runOn cache world).1 =
      .ok inventory) :
    (∀ id, inventory.index.lookup id = (cache.listed.filter fun x => State.yields id
        (x.decoded cloud cache.config.effectiveOptions.arnlessTypes)).getLast?.map Listed.owner) ∧
      inventory.filesLoaded = (cache.listed.filter fun x =>
        (x.decoded cloud cache.config.effectiveOptions.arnlessTypes).toBool).map Listed.path ∧
      inventory.skipped.keys = (cache.listed.filter fun x =>
        !(x.decoded cloud cache.config.effectiveOptions.arnlessTypes).toBool).map Listed.path := by
  have hunlogged : ∀ x ∈ cache.listed, x.place world.files.start ∉ world.log.places :=
    fun x hx hmem => hlog _ hmem (hapart.free x hx)
  rcases hrun : (pull cloud factory cancelAt schedule).runOn cache world with
    ⟨failure | outcomes, after, pulled⟩
  · rw [buildIndex, Step.runOn_bind, hrun] at hbuild
    simp at hbuild
  have hafter := pull_cache hvalid horder hrun
  obtain ⟨hlogs, hcopies⟩ := pulled_copies hvalid hroot horder hrun
  have hbodies : ∀ x ∈ cache.listed, pulled.files.read x.path = .ok (x.body cloud) :=
    fun x hx => ((hcopies x hx).2 (hunlogged x hx)).mpr (hapart.wins horder hx)
  have hentries : after.filenames.entries = cache.listed.map fun x => (x.path, x.owner) := by
    rw [hafter]
    exact entries_configured hapart.paths_nodup
  have hconfig : after.config = cache.config.withOptions := by rw [hafter]
  -- Loading writes to the log, which is none of the copies.
  have hlogApart : LogApart pulled after.filenames.entries := by
    intro entry hentry loc hloc
    rw [hentries] at hentry
    obtain ⟨x, hx, rfl⟩ := List.mem_map.mp hentry
    rw [(hcopies x hx).1] at hloc
    obtain rfl := Except.ok.inj hloc
    rw [hlogs]
    exact hunlogged x hx
  obtain ⟨final, hload, -⟩ := load_run now hlogApart
  simp only [buildIndex, Step.runOn_bind, hrun, Step.runOn_get, Step.runOn_ofAction, hload,
    hentries, hconfig] at hbuild
  rcases htake : Loading.none.takeAll pulled.files
      cache.config.withOptions.effectiveOptions.arnlessTypes
      (cache.listed.map fun x => (x.path, x.owner)) with failure | loading
  · rw [htake] at hbuild
    simp [Except.map] at hbuild
  rw [htake] at hbuild
  obtain rfl : loading.inventory now = inventory := by simpa [Except.map] using hbuild
  exact inventory_of_copies hbodies hapart.paths_nodup htake

end Building

/-- A cloud in which every object is a state document with one resource, whose id is the object's
key. -/
def documentCloud : Cloud where
  session request := .ok request.region
  connection _ := none
  assumeRole _ _ := .error .noCredentials
  identity _ := .error .noCredentials
  transfer _ key :=
    let before : Text := "\x7b\"version\":4,\"resources\":[\x7b\"type\":\"t\",\"name\":\"n\"," ++
      "\"instances\":[\x7b\"attributes\":\x7b\"arn\":\"\",\"id\":\""
    let behind : Text := "\"\x7d\x7d]\x7d]\x7d"
    ⟨(before ++ key ++ behind).map fun c => UInt8.ofNat c.val, none, false, 0⟩

/-- Of two objects with one id the one listed last owns it; a body that does not decode is passed
over. -/
theorem ownership_of_last_listed :
    let cache : Cache := .make ⟨"d", some ⟨[], false, []⟩,
      [⟨"b", ["a", "\""], [], [], [], []⟩, ⟨"c", ["a"], [], [], [], []⟩]⟩ true 1
    ∃ inventory, ((buildIndex documentCloud .standard none (.inOrder 1) sampleWorld.now).runOn cache
        sampleWorld).1 = .ok inventory ∧
      inventory.index.lookup "a" = some "arn:aws:s3:::c/a" ∧
      inventory.filesLoaded = ["d/b/a", "d/c/a"] ∧ inventory.skipped.keys = ["d/b/\""] := by
  intro cache
  have hok : ((buildIndex documentCloud .standard none (.inOrder 1) sampleWorld.now).runOn cache
      sampleWorld).1.toBool = true := by decide +kernel
  rcases hbuild : ((buildIndex documentCloud .standard none (.inOrder 1) sampleWorld.now).runOn cache
      sampleWorld).1 with failure | inventory
  · rw [hbuild] at hok
    simp [Except.toBool] at hok
  have hapart : Apart cache sampleWorld.files :=
    ⟨by decide +kernel, by decide +kernel, by decide +kernel⟩
  obtain ⟨howners, hloaded, hskipped⟩ := ownership_of_built (by decide +kernel)
    rooted_sampleWorld (fun hmany => absurd rfl hmany) (by simp [Log.Setup.Opened, Log.Setup.places,
      sampleWorld, World.start, Log.Setup.initial, Log.Handler.place?]) hapart hbuild
  refine ⟨inventory, rfl, (howners _).trans ?_, hloaded.trans ?_, hskipped.trans ?_⟩
  all_goals decide +kernel

/-- A world with a file outside every directory of copies. -/
def occupiedWorld : World :=
  { sampleWorld with files := sampleWorld.files.set ["w", "x"] (.file []) }

/-- **Copies at different locations that are not above each other do not suffice**: the directory of
`x/../a/../c` leads through the location of `a`, and `../../x` leads out of the destination to a file
that is there. Both are taken for copies and passed over, though the bodies of all objects decode. -/
theorem ownership_lost_above_copies :
    let cache := sampleCache ["x/../a/../c", "a", "../../x"] false
    let places := cache.listed.map (·.place occupiedWorld.files.start)
    cache.config.check = .ok () ∧ places.Nodup ∧
      (∀ place ∈ places, ∀ other ∈ places, place <+: other → place = other) ∧
      (∀ x ∈ cache.listed, ∀ y ∈ cache.listed, ¬ x.path ++ [Path.slash] <+: y.path) ∧
      occupiedWorld.files.get? ["w", "d"] = none ∧
      (∀ x ∈ cache.listed, State.yields x.key (x.decoded documentCloud []) = true) ∧
      ∃ inventory, ((buildIndex documentCloud .standard none (.inOrder 1) sampleWorld.now).runOn
          cache occupiedWorld).1 = .ok inventory ∧
        inventory.index.lookup "a" = none ∧ inventory.index.lookup "../../x" = none ∧
        inventory.filesLoaded = ["d/b/x/../a/../c"] ∧
        inventory.skipped.keys = ["d/b/a", "d/b/../../x"] := by
  intro cache places
  refine ⟨by decide +kernel, by decide +kernel, by decide +kernel, by decide +kernel,
    by decide +kernel, by decide +kernel, ?_⟩
  have hresult : (((buildIndex documentCloud .standard none (.inOrder 1) sampleWorld.now).runOn
      cache occupiedWorld).1.toOption.map fun inventory => (inventory.index.lookup "a",
        inventory.index.lookup "../../x", inventory.filesLoaded, inventory.skipped.keys)) =
      some (none, none, (["d/b/x/../a/../c"] : List Text),
        (["d/b/a", "d/b/../../x"] : List Text)) := by
    decide +kernel
  rcases hbuild : ((buildIndex documentCloud .standard none (.inOrder 1) sampleWorld.now).runOn
      cache occupiedWorld).1 with failure | inventory
  · rw [hbuild] at hresult
    simp [Except.toOption] at hresult
  · rw [hbuild] at hresult
    simp only [Except.toOption, Option.map_some, Option.some.injEq, Prod.mk.injEq] at hresult
    exact ⟨inventory, rfl, hresult⟩

end StateOwnership.Cache
