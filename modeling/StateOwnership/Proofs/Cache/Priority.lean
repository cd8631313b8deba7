import Mathlib.Data.Finset.Max
import StateOwnership.Proofs.Cache.Recovery
import StateOwnership.Proofs.Cache.Skipping

/-!
# Priority among objects with one id

Copies are loaded in the order in which their paths are first listed: a path that is listed again
keeps its place. **So of the objects whose copies yield an id it belongs to the one whose first
listing comes last.** That is the object listed last, unless objects are listed again.
-/

namespace StateOwnership.Cache

/-- The listed objects whose copies yield an id, in order. -/
def holders (cache : Cache) (world : World) (id : Text) : List Listed :=
  cache.listed.filter fun x => (State.idsIn (cache.decoding world x.path)).contains id

/-- The position at which the path of an object's copy is listed first. -/
def firstListing (cache : Cache) (x : Listed) : Nat :=
  (cache.listed.map Listed.path).idxOf x.path

theorem mem_holders {cache : Cache} {world : World} {id : Text} {x : Listed} :
    x ∈ cache.holders world id ↔
      x ∈ cache.listed ∧ (State.idsIn (cache.decoding world x.path)).contains id = true :=
  List.mem_filter

/-! ## 1. Owners of paths -/

-- If different objects have different copies, the path of each is mapped to it.
theorem get?_configured_of_distinct {cache : Cache} {start : Location}
    (hdistinct : cache.DistinctCopies start) {x : Listed} (hx : x ∈ cache.listed) :
    cache.configured.get? x.path = some x.owner := by
  have hthere : x ∈ cache.listed.filter (·.path = x.path) := List.mem_filter.mpr ⟨hx, by simp⟩
  rw [get?_configured, named]
  cases hlast : (cache.listed.filter (·.path = x.path)).getLast? with
  | none =>
    rw [List.getLast?_eq_none_iff] at hlast
    simp [hlast] at hthere
  | some y =>
    obtain ⟨hy, hpath⟩ := List.mem_filter.mp (List.mem_of_getLast? hlast)
    have hplace : y.place start = x.place start :=
      congrArg (Path.target start) (of_decide_eq_true hpath)
    obtain ⟨hbucket, hkey⟩ := hdistinct y hy x hx hplace
    rw [Option.map_some, Listed.owner, Listed.owner, Backend.reference, Backend.reference, hbucket,
      hkey]

theorem keys_configured (cache : Cache) :
    cache.configured.keys = (cache.listed.map Listed.path).eraseDups := by
  rw [configured_eq_ofList, OrderedMap.keys_ofList, List.map_map]
  rfl

/-! ## 2. The copy that counts -/

section Holding

variable {cache : Cache} {world : World} {start : Location} {id : Text} {x : Listed}

/-- The owner of the last path, in the order of the map, whose copy yields an id. -/
def lastOwner (cache : Cache) (world : World) (id : Text) : Option Text :=
  ((cache.configured.entries.filter fun entry =>
    (State.idsIn (cache.decoding world entry.1)).contains id).getLast?).map Prod.snd

-- The last path whose copy yields an id is that of the object whose first listing comes last.
theorem lastOwner_of_holder (hdistinct : cache.DistinctCopies start)
    (hx : x ∈ cache.holders world id)
    (hlast : ∀ y ∈ cache.holders world id, cache.firstListing y ≤ cache.firstListing x) :
    cache.lastOwner world id = some x.owner := by
  obtain ⟨hlisted, hyields⟩ := mem_holders.mp hx
  have hkey : (cache.configured.keys.filter fun path =>
      (State.idsIn (cache.decoding world path)).contains id).getLast? = some x.path := by
    have hmem : x.path ∈ cache.listed.map Listed.path := List.mem_map_of_mem hlisted
    rw [keys_configured]
    apply OrderedMap.getLast?_filter_eraseDups hmem
    · exact hyields
    · intro path hpath hother
      obtain ⟨y, hy, rfl⟩ := List.mem_map.mp hpath
      exact hlast y (mem_holders.mpr ⟨hy, hother⟩)
  rw [lastOwner, cache.configured.entries_eq_map_keys [], List.filter_map, List.getLast?_map,
    Option.map_map]
  refine (congrArg (Option.map _) hkey).trans ?_
  rw [Option.map_some, Function.comp_apply, get?_configured_of_distinct hdistinct hlisted]
  rfl

theorem lastOwner_of_no_holder (h : cache.holders world id = []) :
    cache.lastOwner world id = none := by
  have hnone : (cache.configured.entries.filter fun entry =>
      (State.idsIn (cache.decoding world entry.1)).contains id) = [] := by
    rw [List.filter_eq_nil_iff]
    intro entry hentry hyields
    have hkey : entry.1 ∈ cache.configured.keys := List.mem_map_of_mem hentry
    rw [keys_configured, List.mem_eraseDups] at hkey
    obtain ⟨x, hx, hpath⟩ := List.mem_map.mp hkey
    rw [← hpath] at hyields
    have hholder := mem_holders.mpr ⟨hx, hyields⟩
    simp [h] at hholder
  rw [lastOwner, hnone]
  rfl

-- If copies yield an id, the first listing of one of their objects comes last.
theorem exists_last_holder (hx : x ∈ cache.holders world id) :
    ∃ y ∈ cache.holders world id,
      ∀ z ∈ cache.holders world id, cache.firstListing z ≤ cache.firstListing y := by
  obtain ⟨y, hy, hlast⟩ := (cache.holders world id).toFinset.exists_max_image cache.firstListing
    ⟨x, List.mem_toFinset.mpr hx⟩
  exact ⟨y, List.mem_toFinset.mp hy, fun z hz => hlast z (List.mem_toFinset.mpr hz)⟩

-- If no path is listed again, listings are first listings.
theorem firstListing_le_of_nodup (hnodup : (cache.listed.map Listed.path).Nodup)
    (hx : (cache.holders world id).getLast? = some x) :
    ∀ y ∈ cache.holders world id, cache.firstListing y ≤ cache.firstListing x := by
  have hposition (position : Nat) (hlt : position < cache.listed.length) :
      cache.firstListing cache.listed[position] = position := by
    have hindex := hnodup.idxOf_getElem position (by rwa [List.length_map])
    rwa [List.getElem_map] at hindex
  have hsorted : cache.listed.Pairwise fun y z => cache.firstListing y < cache.firstListing z := by
    rw [List.pairwise_iff_getElem]
    intro earlier later hearlier hlater hlt
    rwa [hposition, hposition]
  have hholders : (cache.holders world id).Pairwise fun y z =>
      cache.firstListing y < cache.firstListing z := hsorted.sublist List.filter_sublist
  obtain ⟨init, hinit⟩ := List.getLast?_eq_some_iff.mp hx
  rw [hinit] at hholders ⊢
  intro y hy
  rcases List.mem_append.mp hy with hinside | hend
  · exact ((List.pairwise_append.mp hholders).2.2 y hinside x (by simp)).le
  · rw [List.mem_singleton.mp hend]

end Holding

/-! ## 3. Indexes that are built -/

section Building

variable {cloud : Cloud} {factory : Fetch.Factory} {cancelAt : Option Nat} {schedule : Schedule}
  {now : DateTime} {cache after : Cache} {world final : World} {inventory : Inventory}

-- What is loaded is decoded after loading as it was before.
theorem decoding_of_alike {entries : List (Text × Text)} (hapart : LogApart world entries)
    (halike : World.Alike world final) : ∀ entry ∈ entries,
      cache.decoding final entry.1 = cache.decoding world entry.1 := by
  intro entry hentry
  rw [decoding_eq, decoding_eq, State.ofFile, State.ofFile,
    FileTree.read_of_rewritten halike.files (hapart entry hentry)]

-- An index that is loaded gives every id to the owner of the last copy that yields it.
theorem lookup_of_load (hapart : LogApart world cache.filenames.entries)
    (h : (load now cache).runIn world = (.ok inventory, final)) (id : Text) :
    inventory.index.lookup id = ((cache.filenames.entries.filter fun entry =>
      (State.idsIn (cache.decoding final entry.1)).contains id).getLast?).map Prod.snd := by
  obtain ⟨after, hload, halike⟩ := load_run now hapart
  rw [hload, Prod.mk.injEq] at h
  obtain ⟨hresult, rfl⟩ := h
  rcases htake : Loading.none.takeAll world.files cache.config.effectiveOptions.arnlessTypes
      cache.filenames.entries with failure | loading
  · simp [htake, Except.map] at hresult
  rw [htake] at hresult
  obtain rfl : loading.inventory now = inventory := Except.ok.inj hresult
  have hget := (get?_of_takeAll htake id).trans Option.or_none
  have hyields : ∀ entry ∈ cache.filenames.entries,
      State.yields id (State.ofFile world.files cache.config.effectiveOptions.arnlessTypes
        entry.1) = (State.idsIn (cache.decoding after entry.1)).contains id := by
    intro entry hentry
    rw [decoding_of_alike hapart halike entry hentry, decoding_eq, State.yields_eq_contains]
  rw [List.filter_congr hyields] at hget
  exact hget

-- An index that is built gives every id to the owner of the last path whose copy yields it.
theorem lookup_of_built (hvalid : cache.config.check = .ok ()) (hroot : world.files.Rooted)
    (horder : cache.workers ≠ 1 →
      schedule.order.Perm (List.range cache.config.backends.length))
    (hunlogged : ∀ x ∈ cache.listed, x.place world.files.start ∉ world.log.places)
    (hbuild : (buildIndex cloud factory cancelAt schedule now).runOn cache world =
      (.ok inventory, after, final)) (id : Text) :
    inventory.index.lookup id = cache.lastOwner final id := by
  rcases hrun : (pull cloud factory cancelAt schedule).runOn cache world with
    ⟨failure | outcomes, pulledCache, pulled⟩
  · rw [buildIndex, Step.runOn_bind, hrun] at hbuild
    simp at hbuild
  have hcache := pull_cache hvalid horder hrun
  obtain ⟨hlogs, hcopies⟩ := pulled_copies hvalid hroot horder hrun
  simp only [buildIndex, Step.runOn_bind, hrun, Step.runOn_get, Step.runOn_ofAction,
    Prod.mk.injEq] at hbuild
  obtain ⟨hresult, -, hfinal⟩ := hbuild
  -- Loading writes to the log, which is none of the copies.
  have hapart : LogApart pulled pulledCache.filenames.entries := by
    intro entry hentry loc hloc
    have hkey : entry.1 ∈ cache.configured.keys := by
      rw [hcache] at hentry
      exact List.mem_map_of_mem hentry
    rw [keys_configured, List.mem_eraseDups] at hkey
    obtain ⟨x, hx, hpath⟩ := List.mem_map.mp hkey
    rw [← hpath, (hcopies x hx).1] at hloc
    rw [hlogs, ← Except.ok.inj hloc]
    exact hunlogged x hx
  have hlookup := lookup_of_load hapart (Prod.ext hresult hfinal) id
  rw [hcache] at hlookup
  exact hlookup

/-- **When different objects have different copies, an index that is built gives an id to the object
whose first listing comes last, among those whose copies yield it.** So the id goes to the object
listed last exactly if that has the name of the one whose first listing comes last, which it is
if no object is listed again. -/
theorem priority_iff (hvalid : cache.config.check = .ok ()) (hroot : world.files.Rooted)
    (horder : cache.workers ≠ 1 →
      schedule.order.Perm (List.range cache.config.backends.length))
    (hdistinct : cache.DistinctCopies world.files.start)
    (hunlogged : ∀ x ∈ cache.listed, x.place world.files.start ∉ world.log.places)
    (hbuild : (buildIndex cloud factory cancelAt schedule now).runOn cache world =
      (.ok inventory, after, final)) (id : Text) :
    (cache.holders final id = [] → inventory.index.lookup id = none) ∧
      (∀ y ∈ cache.holders final id,
        (∀ z ∈ cache.holders final id, cache.firstListing z ≤ cache.firstListing y) →
        inventory.index.lookup id = some y.owner) ∧
      ∀ x, (cache.holders final id).getLast? = some x →
        (inventory.index.lookup id = some x.owner ↔
          ∃ y ∈ cache.holders final id, y.owner = x.owner ∧
            ∀ z ∈ cache.holders final id, cache.firstListing z ≤ cache.firstListing y) ∧
        ((cache.listed.map Listed.path).Nodup → inventory.index.lookup id = some x.owner) := by
  rw [lookup_of_built hvalid hroot horder hunlogged hbuild id]
  refine ⟨lastOwner_of_no_holder, fun y hy hlast => lastOwner_of_holder hdistinct hy hlast, ?_⟩
  intro x hx
  have hholder := List.mem_of_getLast? hx
  refine ⟨⟨fun howner => ?_, ?_⟩, fun hnodup => ?_⟩
  · obtain ⟨y, hy, hlast⟩ := exists_last_holder hholder
    rw [lastOwner_of_holder hdistinct hy hlast, Option.some.injEq] at howner
    exact ⟨y, hy, howner, hlast⟩
  · rintro ⟨y, hy, howner, hlast⟩
    rw [lastOwner_of_holder hdistinct hy hlast, howner]
  · exact lastOwner_of_holder hdistinct hholder (firstListing_le_of_nodup hnodup hx)

end Building

/-- A cloud in which every object is a state document with the same resource. -/
def sharedCloud : Cloud :=
  { documentCloud with transfer := fun bucket _ => documentCloud.transfer bucket "i" }

/-- Of two objects that are both listed again, in the same order, the later one owns their resource. -/
theorem priority_of_both_listed_again :
    let cache := sampleCache ["x", "a", "x", "a"] false
    ∃ inventory after final, (buildIndex sharedCloud .standard none (.inOrder 1)
        sampleWorld.now).runOn cache sampleWorld = (.ok inventory, after, final) ∧
      cache.DistinctCopies sampleWorld.files.start ∧
      (cache.holders final "i").map Listed.key = (["x", "a", "x", "a"] : List Text) ∧
      inventory.index.lookup "i" = some ("arn:aws:s3:::b/a" : Text) := by
  intro cache
  have hok : ((buildIndex sharedCloud .standard none (.inOrder 1) sampleWorld.now).runOn cache
      sampleWorld).1.toBool = true := by decide +kernel
  have hholders : cache.holders ((buildIndex sharedCloud .standard none (.inOrder 1)
      sampleWorld.now).runOn cache sampleWorld).2.2 "i" = cache.listed := by decide +kernel
  rcases hbuild : (buildIndex sharedCloud .standard none (.inOrder 1) sampleWorld.now).runOn cache
    sampleWorld with ⟨failure | inventory, after, final⟩
  · rw [hbuild] at hok
    simp [Except.toBool] at hok
  rw [hbuild] at hholders
  simp only at hholders
  have hdistinct : cache.DistinctCopies sampleWorld.files.start := by decide +kernel
  obtain ⟨-, -, hlast⟩ := priority_iff (by decide +kernel) rooted_sampleWorld
    (fun hmany => absurd rfl hmany) hdistinct (fun _ _ hmem => absurd hmem List.not_mem_nil) hbuild
    "i"
  rw [hholders] at hlast
  refine ⟨inventory, after, final, rfl, hdistinct, ?_, ?_⟩
  · rw [hholders]
    decide +kernel
  · obtain ⟨hiff, -⟩ := hlast ⟨cache.job ⟨"b", ["x", "a", "x", "a"], [], [], [], []⟩, "a"⟩
      (by decide +kernel)
    exact hiff.mpr (by decide +kernel)

/-- **A backend that is listed before another one and again behind it does not count as the later
one**: the path of its object keeps the place of the first listing, so the resource of both goes to
the other. -/
theorem priority_lost_by_first_listing :
    let backend : Backend := ⟨"b", ["a"], [], [], [], []⟩
    let other : Backend := ⟨"c", ["x"], [], [], [], []⟩
    let cache : Cache := .make ⟨"d", some ⟨[], false, []⟩, [backend, other, backend]⟩ true 1
    cache.config.check = .ok () ∧ cache.DistinctCopies sampleWorld.files.start ∧
      ∃ inventory after final, (buildIndex sharedCloud .standard none (.inOrder 3)
          sampleWorld.now).runOn cache sampleWorld = (.ok inventory, after, final) ∧
        (cache.holders final "i").getLast?.map Listed.owner = some ("arn:aws:s3:::b/a" : Text) ∧
        inventory.index.lookup "i" = some ("arn:aws:s3:::c/x" : Text) ∧
        ¬ ∀ id x, (cache.holders final id).getLast? = some x →
          inventory.index.lookup id = some x.owner := by
  intro backend other cache
  refine ⟨by decide +kernel, by decide +kernel, ?_⟩
  have hresult : (((buildIndex sharedCloud .standard none (.inOrder 3) sampleWorld.now).runOn cache
      sampleWorld).1.toOption.map (·.index.lookup "i")) = some (some ("arn:aws:s3:::c/x" : Text)) := by
    decide +kernel
  have hholders : cache.holders ((buildIndex sharedCloud .standard none (.inOrder 3)
      sampleWorld.now).runOn cache sampleWorld).2.2 "i" = cache.listed := by decide +kernel
  rcases hbuild : (buildIndex sharedCloud .standard none (.inOrder 3) sampleWorld.now).runOn cache
    sampleWorld with ⟨failure | inventory, after, final⟩
  · rw [hbuild] at hresult
    simp [Except.toOption] at hresult
  rw [hbuild] at hresult hholders
  have hlookup : inventory.index.lookup "i" = some ("arn:aws:s3:::c/x" : Text) :=
    Option.some.inj hresult
  refine ⟨inventory, after, final, rfl, ?_, hlookup, fun hall => ?_⟩
  · rw [hholders]
    decide +kernel
  · have hlast := hall "i" ⟨cache.job backend, "a"⟩ (hholders ▸ by decide +kernel)
    rw [hlookup] at hlast
    exact absurd hlast (by decide +kernel)

end StateOwnership.Cache
