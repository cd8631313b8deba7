import StateOwnership.Proofs.Cache.Ownership
import StateOwnership.Proofs.Cache.Reporting

/-!
# Copies that cannot be decoded

A copy that cannot be decoded takes no part in what is loaded from the others. **Loading a cache
gives an account of every copy in the order of their paths, and the index that the decodable copies
give by themselves**: the ids in the order of their first appearance, each with the owner of the last
copy that yields it.
-/

namespace StateOwnership

def OrderedMap.filter {α β : Type} (keep : α × β → Bool) (m : OrderedMap α β) : OrderedMap α β :=
  ⟨m.entries.filter keep, m.keys_nodup.sublist (List.filter_sublist.map _)⟩

/-! ## 1. What a decoding contributes -/

namespace State

section Results

variable {ε : Type}

def idsIn : Except ε (List Descriptor) → List Text
  | .ok descriptors => descriptors.map (·.id)
  | .error _ => []

/-- What is said about a copy that is passed over. -/
def excuse : Except Failure (List Descriptor) → Option Text
  | .error (.error e) => some e.message
  | _ => none

theorem yields_eq_contains (id : Text) (result : Except ε (List Descriptor)) :
    yields id result = (idsIn result).contains id := by
  cases result <;> rfl

end Results

end State

namespace Cache

def decoding (cache : Cache) (world : World) (path : Text) :
    Except Failure (List State.Descriptor) :=
  ((State.loadFile cache.config.effectiveOptions.arnlessTypes path).runIn world).1

def decodable (cache : Cache) (world : World) : Cache :=
  { cache with
    filenames := cache.filenames.filter fun entry => (cache.decoding world entry.1).toBool }

theorem decoding_eq (cache : Cache) (world : World) (path : Text) : cache.decoding world path =
    State.ofFile world.files cache.config.effectiveOptions.arnlessTypes path := by
  obtain ⟨after, hrun, -⟩ :=
    State.loadFile_run cache.config.effectiveOptions.arnlessTypes path world
  rw [decoding, hrun]

/-- Every id of a decodable copy with the owner of the copy, in order. -/
def claims (files : FileTree) (arnless : List Text) (entries : List (Text × Text)) :
    List (Text × Text) :=
  entries.flatMap fun entry =>
    (State.idsIn (State.ofFile files arnless entry.1)).map fun id => (id, entry.2)

theorem entries_claimAll (builder : Index.Builder) (ids : List Text) (owner : Text) :
    (builder.claimAll ids owner).entries =
      builder.entries.insertAll (ids.map fun id => (id, owner)) := by
  induction ids generalizing builder with
  | nil => rfl
  | cons id rest ih => exact ih (builder.claim owner id)

/-! ## 2. What loading makes of copies in order -/

section Taking

variable {files : FileTree} {arnless : List Text} {loading final : Loading}
  {entries : List (Text × Text)}

-- The copies that are passed over are noted with what is said about them, in order.
theorem skipped_entries_of_takeAll (h : loading.takeAll files arnless entries = .ok final)
    (hnodup : (loading.skipped.keys ++ entries.map Prod.fst).Nodup) :
    final.skipped.entries = loading.skipped.entries ++ entries.filterMap fun entry =>
      (State.excuse (State.ofFile files arnless entry.1)).map fun message =>
        (entry.1, message) := by
  induction entries generalizing loading with
  | nil =>
    obtain rfl := Except.ok.inj h
    simp
  | cons entry rest ih =>
    obtain ⟨path, owner⟩ := entry
    obtain ⟨next, hfirst, hrest⟩ := takeAll_cons_ok h
    rw [List.map_cons] at hnodup
    rcases take_ok hfirst with ⟨descriptors, hfile, rfl⟩ | ⟨e, hfile, rfl⟩
    · rw [ih hrest (hnodup.sublist ((List.sublist_cons_self _ _).append_left _))]
      simp [hfile, Loading.add, State.excuse]
    · obtain ⟨hskip, hkeys⟩ := skip_of_nodup hnodup e.message
      rw [ih hrest (by simpa [hkeys] using hnodup), hskip]
      simp [hfile, State.excuse]

-- The copies claim their ids one after the other.
theorem entries_of_takeAll (h : loading.takeAll files arnless entries = .ok final) :
    final.builder.entries = loading.builder.entries.insertAll (claims files arnless entries) := by
  induction entries generalizing loading with
  | nil =>
    obtain rfl := Except.ok.inj h
    rfl
  | cons entry rest ih =>
    obtain ⟨path, owner⟩ := entry
    obtain ⟨next, hfirst, hrest⟩ := takeAll_cons_ok h
    rw [ih hrest]
    rcases take_ok hfirst with ⟨descriptors, hfile, rfl⟩ | ⟨e, hfile, rfl⟩
    · rw [Loading.add, entries_claimAll]
      simp [claims, hfile, State.idsIn, OrderedMap.insertAll, List.foldl_append]
    · simp [claims, hfile, State.idsIn, Loading.skip]

-- Without the copies that are passed over the others give the same.
theorem takeAll_decodable (h : loading.takeAll files arnless entries = .ok final)
    (skipped : OrderedMap Text Text) :
    ({ loading with skipped := skipped } : Loading).takeAll files arnless
        (entries.filter fun entry => (State.ofFile files arnless entry.1).toBool) =
      .ok { final with skipped := skipped } := by
  induction entries generalizing loading with
  | nil =>
    obtain rfl := Except.ok.inj h
    rfl
  | cons entry rest ih =>
    obtain ⟨path, owner⟩ := entry
    obtain ⟨next, hfirst, hrest⟩ := takeAll_cons_ok h
    rcases take_ok hfirst with ⟨descriptors, hfile, rfl⟩ | ⟨e, hfile, rfl⟩
    · rw [List.filter_cons_of_pos (by simp [hfile, Except.toBool]), Loading.takeAll, hfile]
      exact ih hrest
    · rw [List.filter_cons_of_neg (by simp [hfile, Except.toBool])]
      exact @ih (loading.skip path e.message) hrest

end Taking

/-! ## 3. The whole of loading -/

-- A cache without some of its copies is loaded from the copies that are left.
theorem load_decodable (now : DateTime) {cache : Cache} {world : World} {loading : Loading}
    (hapart : LogApart world cache.filenames.entries)
    (h : Loading.none.takeAll world.files cache.config.effectiveOptions.arnlessTypes
      cache.filenames.entries = .ok loading) :
    ∃ after, (load now (cache.decodable world)).runIn world =
      (.ok ({ loading with skipped := ∅ }.inventory now), after) := by
  have hfewer : LogApart world (cache.decodable world).filenames.entries :=
    fun entry hentry => hapart entry (List.mem_of_mem_filter hentry)
  obtain ⟨after, hload, -⟩ := load_run now hfewer
  have hentries : (cache.decodable world).filenames.entries =
      cache.filenames.entries.filter fun entry => (State.ofFile world.files
        cache.config.effectiveOptions.arnlessTypes entry.1).toBool := by
    simp only [decodable, OrderedMap.filter, decoding_eq]
  refine ⟨after, hload.trans ?_⟩
  rw [hentries]
  exact congrArg (fun result => (Except.map _ result, after)) (takeAll_decodable h ∅)

/-- **A cache whose copies are all decoded or reported is loaded.** The copies that are decoded and,
with what is said about them, those that are not are listed in the order of their paths. The index is
that of the decodable copies alone: an id stands where it first appears among them and belongs to the
owner of the last one that yields it. Neither the owners of paths nor any file but those of the log
are changed. -/
theorem loaded_of_caught (now : DateTime) {cache : Cache} {world : World}
    (hapart : LogApart world cache.filenames.entries)
    (hcaught : ∀ entry ∈ cache.filenames.entries, State.Caught (cache.decoding world entry.1)) :
    ∃ inventory after,
      (Step.ofAction (load now cache)).runOn cache world = (.ok inventory, cache, after) ∧
      World.Alike world after ∧
      inventory.filesLoaded = (cache.filenames.entries.filter fun entry =>
        (cache.decoding world entry.1).toBool).map Prod.fst ∧
      inventory.skipped.entries = (cache.filenames.entries.filterMap fun entry =>
        (State.excuse (cache.decoding world entry.1)).map fun message => (entry.1, message)) ∧
      (∃ fewer final, (load now (cache.decodable world)).runIn world = (.ok fewer, final) ∧
        inventory.index = fewer.index ∧ inventory.collisions = fewer.collisions) ∧
      (∀ id, inventory.index.lookup id = ((cache.filenames.entries.filter fun entry =>
        (State.idsIn (cache.decoding world entry.1)).contains id).getLast?).map Prod.snd) ∧
      inventory.index.ids = (cache.filenames.entries.flatMap fun entry =>
        State.idsIn (cache.decoding world entry.1)).eraseDups := by
  simp only [decoding_eq] at hcaught ⊢
  obtain ⟨after, hload, halike⟩ := load_run now hapart
  have htaken : (Loading.none.takeAll world.files cache.config.effectiveOptions.arnlessTypes
      cache.filenames.entries).toBool = true := toBool_takeAll.mpr hcaught
  rcases htake : Loading.none.takeAll world.files cache.config.effectiveOptions.arnlessTypes
      cache.filenames.entries with failure | loading
  · simp [htake, Except.toBool] at htaken
  obtain ⟨final, hfewer⟩ := load_decodable now hapart htake
  refine ⟨loading.inventory now, after, ?_, halike, ?_, ?_, ⟨_, final, hfewer, rfl, rfl⟩, ?_, ?_⟩
  · rw [Step.runOn_ofAction, hload, htake]
    rfl
  · exact filesLoaded_of_takeAll htake
  · exact skipped_entries_of_takeAll htake cache.filenames.keys_nodup
  · intro id
    simp only [← State.yields_eq_contains]
    exact (get?_of_takeAll htake id).trans Option.or_none
  · have hentries : loading.builder.entries = OrderedMap.ofList (claims world.files
        cache.config.effectiveOptions.arnlessTypes cache.filenames.entries) :=
      entries_of_takeAll htake
    show loading.builder.entries.keys = _
    rw [hentries, OrderedMap.keys_ofList, claims, List.map_flatMap]
    simp only [List.map_map, Function.comp_def, List.map_id']

/-- A world in which `s` and `t` are state documents with one resource each and `no` is empty. -/
def mixedWorld : World :=
  let document (id : Text) : Bytes := (documentCloud.transfer "b" id).body
  { sampleWorld with
    files := ((sampleWorld.files.set ["w", "s"] (.file (document "i"))).set ["w", "no"]
      (.file [])).set ["w", "t"] (.file (document "i")) }

/-- Of two copies that yield one id the later one owns it, and the empty copy between them is passed
over. -/
theorem loaded_past_empty_copy :
    let cache : Cache := { Cache.make ⟨"d", none, []⟩ true 1 with
      filenames := OrderedMap.ofList [("s", "o"), ("no", "p"), ("t", "q")] }
    LogApart mixedWorld cache.filenames.entries ∧
      (∀ entry ∈ cache.filenames.entries,
        State.Caught (cache.decoding mixedWorld entry.1)) ∧
      ∃ inventory after, (Step.ofAction (load mixedWorld.now cache)).runOn cache mixedWorld =
          (.ok inventory, cache, after) ∧
        inventory.filesLoaded = ["s", "t"] ∧ inventory.skipped.keys = ["no"] ∧
        inventory.index.lookup "i" = some "q" ∧ inventory.index.ids = ["i"] := by
  intro cache
  have hapart : LogApart mixedWorld cache.filenames.entries :=
    fun _ _ _ _ hmem => absurd hmem List.not_mem_nil
  have hcaught : ∀ entry ∈ cache.filenames.entries,
      State.Caught (cache.decoding mixedWorld entry.1) := by
    intro entry hentry
    rw [decoding_eq, ← toBool_take .none entry.1 entry.2]
    have hall : ∀ entry ∈ cache.filenames.entries, (Loading.none.take entry.1 entry.2
        (State.ofFile mixedWorld.files cache.config.effectiveOptions.arnlessTypes
          entry.1)).toBool = true := by decide +kernel
    exact hall entry hentry
  obtain ⟨inventory, after, hrun, -, hloaded, hskipped, -, hlookup, hids⟩ :=
    loaded_of_caught mixedWorld.now hapart hcaught
  refine ⟨hapart, hcaught, inventory, after, hrun, hloaded.trans ?_, ?_, (hlookup _).trans ?_,
    hids.trans ?_⟩
  · decide +kernel
  · rw [OrderedMap.keys, hskipped]
    decide +kernel
  · decide +kernel
  · decide +kernel

end Cache
end StateOwnership
