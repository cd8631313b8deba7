import Mathlib.Data.List.Perm.Basic
import StateOwnership.Proofs.Cache.Collisions

/-!
# Copies in another order

What a cache is loaded to depends on the order of its copies where they share an id, and nowhere
else. **Two orders of the same copies that agree on every two copies with an id in common give every
id the same owner, count the same collisions and list the same copies**, whatever the order of the
descriptors inside a copy.
-/

namespace StateOwnership

/-! ## 1. Items whose order is kept -/

section Kept

variable {α : Type} {items others : List α}

-- Of two items of a list without repetitions only one comes before the other.
theorem not_sublist_swap (hnodup : items.Nodup) {x y : α} (h : [x, y].Sublist items) :
    ¬ [y, x].Sublist items := by
  induction items with
  | nil => simp at h
  | cons first rest ih =>
    rw [List.nodup_cons] at hnodup
    intro hswap
    rcases List.cons_sublist_cons'.mp h with hrest | ⟨rfl, hy⟩
    · rcases List.cons_sublist_cons'.mp hswap with hrest' | ⟨rfl, -⟩
      · exact ih hnodup.2 hrest hrest'
      · exact hnodup.1 (hrest.subset (by simp))
    · rcases List.cons_sublist_cons'.mp hswap with hrest' | ⟨rfl, -⟩
      · exact hnodup.1 (hrest'.subset (by simp))
      · exact hnodup.1 (List.singleton_sublist.mp hy)

-- Items that keep their order among each other are the same list in both orders.
theorem filter_eq_of_kept (hperm : items.Perm others) (hnodup : items.Nodup) (keep : α → Bool)
    (hkept : ∀ x y, keep x = true → keep y = true → [x, y].Sublist items →
      [x, y].Sublist others) : items.filter keep = others.filter keep := by
  have hasymm : ∀ x y, x ∈ items.filter keep → y ∈ others.filter keep →
      [x, y].Sublist others → [y, x].Sublist others → x = y := fun x y _ _ hxy hyx =>
    absurd hyx (not_sublist_swap (hperm.nodup_iff.mp hnodup) hxy)
  have hitems : (items.filter keep).Pairwise fun x y => [x, y].Sublist others := by
    refine List.pairwise_iff_forall_sublist.mpr fun {x y} hxy => ?_
    have hx := (List.mem_filter.mp (hxy.subset List.mem_cons_self)).2
    have hy := (List.mem_filter.mp (hxy.subset (List.mem_cons_of_mem x List.mem_cons_self))).2
    exact hkept x y hx hy (hxy.trans List.filter_sublist)
  have hothers : (others.filter keep).Pairwise fun x y => [x, y].Sublist others :=
    List.pairwise_iff_forall_sublist.mpr fun hxy => hxy.trans List.filter_sublist
  exact List.Perm.eq_of_pairwise hasymm hitems hothers (hperm.filter keep)

end Kept

/-! ## 2. Indexes that agree on every id -/

namespace Index

-- An owner is counted as often as it is among the values.
theorem get?_countOwners (counts : OrderedMap Text Nat) (values : List Text) (owner : Text) :
    (values.foldl countOwner counts).get? owner =
      if owner ∈ values then some ((counts.get? owner).getD 0 + values.count owner)
      else counts.get? owner := by
  induction values generalizing counts with
  | nil => rfl
  | cons value rest ih =>
    rw [List.foldl_cons, ih, countOwner, OrderedMap.get?_insert]
    by_cases hvalue : value = owner
    · subst hvalue
      by_cases hmem : value ∈ rest
      · simp [hmem, Nat.add_assoc, Nat.add_comm 1]
      · simp [hmem, List.count_eq_zero_of_not_mem hmem]
    · simp [hvalue, Ne.symm hvalue]

-- Indexes that give every id the same owner count the same for every owner.
theorem owners_congr {a b : Index} (h : ∀ id, a.lookup id = b.lookup id) (owner : Text) :
    a.owners.get? owner = b.owners.get? owner := by
  have hvalues : a.entries.values.Perm b.entries.values := (OrderedMap.perm_of_get?_eq h).map _
  rw [owners, owners, get?_countOwners, get?_countOwners, hvalues.count_eq]
  simp only [hvalues.mem_iff]

-- Builders in which every id has passed equally often have the same number of takeovers.
theorem Builder.overwritten_congr {a b : Builder} (h : ∀ id, a.passes id = b.passes id) :
    a.overwritten = b.overwritten := by
  have hperm : (a.takeovers.map (·.id)).Perm (b.takeovers.map (·.id)) := by
    refine List.perm_iff_count.mpr fun id => ?_
    have hcount (builder : Builder) :
        (builder.takeovers.map (·.id)).count id = builder.passes id := by
      rw [List.count, List.countP_map]
      exact List.countP_congr fun t _ => by simp
    rw [hcount, hcount, h]
  simpa [overwritten] using hperm.length_eq

end Index

/-! ## 3. Caches in another order -/

/-- Two inventories say the same, apart from the order in which they say it. -/
structure Inventory.SameButOrder (a b : Inventory) : Prop where
  lookup : ∀ id, a.index.lookup id = b.index.lookup id
  collisions : a.collisions = b.collisions
  owners : ∀ owner, a.index.owners.get? owner = b.index.owners.get? owner
  filesLoaded : a.filesLoaded.Perm b.filesLoaded
  skipped : a.skipped.entries.Perm b.skipped.entries

/-- A copy is decoded to the same descriptors in some order, or passed over for the same reason. -/
inductive State.SameDescriptors :
    Except Failure (List Descriptor) → Except Failure (List Descriptor) → Prop
  | loaded {descriptors others : List Descriptor} (h : descriptors.Perm others) :
      SameDescriptors (.ok descriptors) (.ok others)
  | passedOver (e : Error) : SameDescriptors (.error (.error e)) (.error (.error e))

namespace State.SameDescriptors

variable {a b : Except Failure (List Descriptor)}

theorem refl (h : Caught a) : SameDescriptors a a := by
  rcases a with (e | _ | _ | _ | _ | _) | descriptors
  case ok => exact .loaded (.refl _)
  case error.error => exact .passedOver e
  all_goals exact h.elim

theorem caught (h : SameDescriptors a b) : Caught a ∧ Caught b := by
  cases h <;> exact ⟨trivial, trivial⟩

theorem toBool_eq (h : SameDescriptors a b) : a.toBool = b.toBool := by
  cases h <;> rfl

theorem excuse_eq (h : SameDescriptors a b) : excuse a = excuse b := by
  cases h <;> rfl

theorem yields_eq (h : SameDescriptors a b) (id : Text) : yields id a = yields id b := by
  cases h with
  | loaded hperm =>
    rw [yields, yields, Bool.eq_iff_iff, List.contains_iff_mem, List.contains_iff_mem]
    exact (hperm.map _).mem_iff
  | passedOver e => rfl

end State.SameDescriptors

namespace Cache

def ShareId (cache : Cache) (world : World) (entry other : Text × Text) : Prop :=
  ∃ id, State.yields id (cache.decoding world entry.1) = true ∧
    State.yields id (cache.decoding world other.1) = true

/-- The copies of a cache in another order, and in a world in which their descriptors may stand in
another order too. Copies with an id in common keep their order. -/
structure Reordered (cache : Cache) (world : World) (filenames : OrderedMap Text Text)
    (other : World) : Prop where
  perm : cache.filenames.entries.Perm filenames.entries
  same : ∀ entry ∈ cache.filenames.entries,
    State.SameDescriptors (cache.decoding world entry.1) (cache.decoding other entry.1)
  kept : ∀ entry behind, cache.ShareId world entry behind →
    [entry, behind].Sublist cache.filenames.entries → [entry, behind].Sublist filenames.entries

namespace Reordered

variable {cache : Cache} {world other : World} {filenames : OrderedMap Text Text}

-- The copies that yield an id are the same in both orders.
theorem filter_yields (h : cache.Reordered world filenames other) (id : Text) :
    cache.filenames.entries.filter (fun entry => State.yields id (cache.decoding world entry.1)) =
      filenames.entries.filter fun entry => State.yields id (cache.decoding other entry.1) := by
  rw [filter_eq_of_kept h.perm cache.filenames.keys_nodup.of_map _
    fun entry behind hentry hbehind => h.kept entry behind ⟨id, hentry, hbehind⟩]
  exact List.filter_congr fun entry hentry =>
    (h.same entry (h.perm.mem_iff.mpr hentry)).yields_eq id

end Reordered

-- Loading that ends well has taken the copies one after the other.
theorem loaded_from (now : DateTime) {cache : Cache} {world : World}
    (hapart : LogApart world cache.filenames.entries)
    (hcaught : ∀ entry ∈ cache.filenames.entries, State.Caught (cache.decoding world entry.1)) :
    ∃ loading after, (load now cache).runIn world = (.ok (loading.inventory now), after) ∧
      Loading.none.takeAll world.files cache.config.effectiveOptions.arnlessTypes
        cache.filenames.entries = .ok loading := by
  simp only [decoding_eq] at hcaught
  obtain ⟨after, hload, -⟩ := load_run now hapart
  have htaken : (Loading.none.takeAll world.files cache.config.effectiveOptions.arnlessTypes
      cache.filenames.entries).toBool = true := toBool_takeAll.mpr hcaught
  rcases htake : Loading.none.takeAll world.files cache.config.effectiveOptions.arnlessTypes
      cache.filenames.entries with failure | loading
  · simp [htake, Except.toBool] at htaken
  · exact ⟨loading, after, by rw [hload, htake]; rfl, rfl⟩

-- What is made of the copies in one order is what is made of them in the other.
theorem Reordered.sameButOrder {cache : Cache} {world other : World}
    {filenames : OrderedMap Text Text} (h : cache.Reordered world filenames other)
    (howners : cache.filenames.values.Nodup) {loading second : Loading} (now later : DateTime)
    (hfirst : Loading.none.takeAll world.files cache.config.effectiveOptions.arnlessTypes
      cache.filenames.entries = .ok loading)
    (hsecond : Loading.none.takeAll other.files cache.config.effectiveOptions.arnlessTypes
      filenames.entries = .ok second) :
    (loading.inventory now).SameButOrder (second.inventory later) := by
  have hlookup (id : Text) :
      loading.builder.entries.get? id = second.builder.entries.get? id := by
    rw [get?_of_takeAll hfirst, get?_of_takeAll hsecond]
    simp only [← decoding_eq, h.filter_yields id]
  have hpasses (id : Text) : loading.builder.passes id = second.builder.passes id := by
    have hnodup : (filenames.entries.map Prod.snd).Nodup := (h.perm.map _).nodup_iff.mp howners
    have hpasses := passes_of_takeAll hfirst howners id fun _ _ hsome => by cases hsome
    have hpasses' := passes_of_takeAll hsecond hnodup id fun _ _ hsome => by cases hsome
    rw [hpasses, hpasses']
    simp only [← decoding_eq, ← State.yields_eq_contains, List.countP_eq_length_filter,
      h.filter_yields id]
  refine ⟨hlookup, ?_, Index.owners_congr hlookup, ?_, ?_⟩
  · exact congrArg Int.ofNat (Index.Builder.overwritten_congr hpasses)
  · show loading.filesLoaded.Perm second.filesLoaded
    rw [filesLoaded_of_takeAll hfirst, filesLoaded_of_takeAll hsecond]
    simp only [← decoding_eq]
    rw [List.filter_congr fun entry hentry => (h.same entry hentry).toBool_eq]
    exact ((h.perm.filter _).map _).append_left _
  · show loading.skipped.entries.Perm second.skipped.entries
    rw [skipped_entries_of_takeAll hfirst cache.filenames.keys_nodup,
      skipped_entries_of_takeAll hsecond filenames.keys_nodup]
    simp only [← decoding_eq]
    rw [List.filterMap_congr fun entry hentry => by rw [(h.same entry hentry).excuse_eq]]
    exact (h.perm.filterMap _).append_left _

/-- **If every copy has an owner of its own, a cache is loaded to the same whatever the order of its
copies and of the descriptors in them, as long as copies with an id in common keep their order.**
Every id has the same owner, the collisions and the ids of every owner are as many, and the same
copies are loaded and passed over, with the same said about them. -/
theorem load_reordered (now later : DateTime) {cache : Cache} {world other : World}
    {filenames : OrderedMap Text Text} (h : cache.Reordered world filenames other)
    (howners : cache.filenames.values.Nodup)
    (hapart : LogApart world cache.filenames.entries)
    (hother : LogApart other filenames.entries) :
    ∃ inventory second after final,
      (load now cache).runIn world = (.ok inventory, after) ∧
      (load later { cache with filenames := filenames }).runIn other = (.ok second, final) ∧
      inventory.SameButOrder second := by
  obtain ⟨loading, after, hload, hfirst⟩ := loaded_from now hapart
    fun entry hentry => (h.same entry hentry).caught.1
  obtain ⟨reloading, final, hreload, hsecond⟩ :=
    @loaded_from later { cache with filenames := filenames } other hother
      fun entry hentry => (h.same entry (h.perm.mem_iff.mpr hentry)).caught.2
  exact ⟨_, _, after, final, hload, hreload, h.sameButOrder howners now later hfirst hsecond⟩

def documentWith (ids : List Text) : Bytes :=
  let resource (id : Text) : Text :=
    "\x7b\"type\":\"t\",\"name\":\"n\"," ++
      "\"instances\":[\x7b\"attributes\":\x7b\"arn\":\"\",\"id\":\"" ++ id ++ "\"\x7d\x7d]\x7d"
  let document : Text :=
    "\x7b\"version\":4,\"resources\":[" ++ List.intercalate "," (ids.map resource) ++ "]\x7d"
  document.map fun c => UInt8.ofNat c.val

/-- A world in which `r` is a document with the given ids, `s` one with `b`, and `no` is empty. -/
def worldWith (ids : List Text) : World :=
  { sampleWorld with
    files := ((sampleWorld.files.set ["w", "r"] (.file (documentWith ids))).set ["w", "s"]
      (.file (documentWith ["b"]))).set ["w", "no"] (.file []) }

/-- An empty copy can be moved to the front and the resources of `r` can be exchanged, since `r`
stays before `s`, with which it shares `b`. -/
theorem load_reordered_of_shared_id :
    let cache := sharingCopies ["r", "s", "no"]
    let filenames := (sharingCopies ["no", "r", "s"]).filenames
    cache.Reordered (worldWith ["a", "b"]) filenames (worldWith ["b", "a"]) ∧
      cache.filenames.values.Nodup ∧
      LogApart (worldWith ["a", "b"]) cache.filenames.entries ∧
      LogApart (worldWith ["b", "a"]) filenames.entries ∧
      ∃ inventory second after final,
        (load sampleWorld.now cache).runIn (worldWith ["a", "b"]) = (.ok inventory, after) ∧
        (load sampleWorld.now { cache with filenames := filenames }).runIn (worldWith ["b", "a"]) =
          (.ok second, final) ∧
        inventory.SameButOrder second := by
  intro cache filenames
  have hsame : ∀ entry ∈ cache.filenames.entries, State.SameDescriptors
      (cache.decoding (worldWith ["a", "b"]) entry.1)
      (cache.decoding (worldWith ["b", "a"]) entry.1) := by
    have hunchanged : ∀ path ∈ (["s", "no"] : List Text),
        cache.decoding (worldWith ["b", "a"]) path = cache.decoding (worldWith ["a", "b"]) path ∧
          (Loading.none.take path path
            (cache.decoding (worldWith ["a", "b"]) path)).toBool = true := by
      decide +kernel
    have hr : cache.decoding (worldWith ["a", "b"]) "r" =
        .ok [⟨"a", "", "t", "t.n"⟩, ⟨"b", "", "t", "t.n"⟩] := by decide +kernel
    have hr' : cache.decoding (worldWith ["b", "a"]) "r" =
        .ok [⟨"b", "", "t", "t.n"⟩, ⟨"a", "", "t", "t.n"⟩] := by decide +kernel
    have hentries : cache.filenames.entries =
        ([("r", "r"), ("s", "s"), ("no", "no")] : List (Text × Text)) := rfl
    rw [hentries, List.forall_mem_cons]
    refine ⟨?_, fun entry hentry => ?_⟩
    · rw [hr, hr']
      exact .loaded (.swap _ _ _)
    · have hpath : entry.1 ∈ (["s", "no"] : List Text) :=
        List.mem_map_of_mem (f := Prod.fst) hentry
      obtain ⟨heq, htaken⟩ := hunchanged entry.1 hpath
      rw [heq]
      exact .refl ((toBool_take _ _ _ _).mp htaken)
  have hkept : ∀ entry behind, cache.ShareId (worldWith ["a", "b"]) entry behind →
      [entry, behind].Sublist cache.filenames.entries →
      [entry, behind].Sublist filenames.entries := by
    -- Only the empty copy changes its place, and it has no ids.
    have hplaces : ∀ entry ∈ cache.filenames.entries, ∀ behind ∈ cache.filenames.entries,
        [entry, behind].Sublist cache.filenames.entries →
        [entry, behind].Sublist filenames.entries ∨
          State.idsIn (cache.decoding (worldWith ["a", "b"]) behind.1) = [] := by
      decide +kernel
    rintro entry behind ⟨id, -, hbehind⟩ hsub
    refine (hplaces entry (hsub.subset (by simp)) behind (hsub.subset (by simp)) hsub).resolve_right
      fun hnone => ?_
    rw [State.yields_eq_contains, hnone] at hbehind
    cases hbehind
  have hreordered : cache.Reordered (worldWith ["a", "b"]) filenames (worldWith ["b", "a"]) :=
    ⟨by decide +kernel, hsame, hkept⟩
  have howners : cache.filenames.values.Nodup := by decide
  have hapart (ids : List Text) (entries : List (Text × Text)) :
      LogApart (worldWith ids) entries := fun _ _ _ _ hmem => absurd hmem List.not_mem_nil
  exact ⟨hreordered, howners, hapart _ _, hapart _ _,
    load_reordered _ _ hreordered howners (hapart _ _) (hapart _ _)⟩

end Cache
end StateOwnership
