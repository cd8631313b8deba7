import Mathlib.Algebra.BigOperators.Group.Finset.Piecewise
import Mathlib.Algebra.Order.BigOperators.Group.Finset
import StateOwnership.Proofs.Cache.Skipping

/-!
# Resources that several files claim

Loading counts a collision whenever an id passes from one owner to another. **If every copy has an
owner of its own, an id that several copies yield is counted once less than there are such copies**:
the collisions are the ids that are shared exactly if no id is yielded by more than two copies.
-/

namespace StateOwnership

/-! ## 1. Takeovers of one id -/

namespace Index.Builder

/-- How often an id has passed from one owner to another. -/
def passes (builder : Builder) (id : Text) : Nat :=
  builder.takeovers.countP (·.id = id)

theorem takeover?_eq_none (builder : Builder) (owner id : Text) :
    builder.takeover? owner id = none ↔ ∀ previous ∈ builder.entries.get? id, previous = owner := by
  rw [takeover?]
  cases builder.entries.get? id <;> simp

theorem id_of_takeover? {builder : Builder} {owner id : Text} {t : Takeover}
    (h : builder.takeover? owner id = some t) : t.id = id := by
  unfold takeover? at h
  split at h
  · simp at h
  · split at h
    · simp at h
    · exact (Option.some.inj h) ▸ rfl

theorem passes_claim (builder : Builder) (owner other id : Text) :
    (builder.claim owner other).passes id = builder.passes id +
      if other = id ∧ builder.takeover? owner id ≠ none then 1 else 0 := by
  rw [passes, passes, claim, List.countP_append]
  congr 1
  cases htakeover : builder.takeover? owner other with
  | none =>
    rw [if_neg fun h => h.2 (h.1 ▸ htakeover)]
    rfl
  | some t =>
    have hid := id_of_takeover? htakeover
    by_cases heq : other = id
    · rw [if_pos ⟨heq, by simp [← heq, htakeover]⟩]
      simp [hid, heq]
    · rw [if_neg fun h => heq h.1]
      simp [hid, heq]

-- Of all claims of an id by one owner only the first can take it over.
theorem passes_claimAll (builder : Builder) (ids : List Text) (owner id : Text) :
    (builder.claimAll ids owner).passes id = builder.passes id +
      if id ∈ ids ∧ builder.takeover? owner id ≠ none then 1 else 0 := by
  induction ids generalizing builder with
  | nil => simp [claimAll]
  | cons first rest ih =>
    have hclaim : builder.claimAll (first :: rest) owner =
        (builder.claim owner first).claimAll rest owner := rfl
    rw [hclaim, ih, passes_claim, Nat.add_assoc]
    congr 1
    by_cases hfirst : first = id
    · subst hfirst
      have hown : (builder.claim owner first).takeover? owner first = none := by
        rw [takeover?_eq_none, claim, OrderedMap.get?_insert, if_pos rfl]
        simp
      simp [hown]
    · have hsame : (builder.claim owner first).takeover? owner id = builder.takeover? owner id := by
        rw [takeover?, takeover?, claim, OrderedMap.get?_insert, if_neg hfirst]
      simp [hfirst, Ne.symm hfirst, hsame]

-- If the owner does not have the id yet, the claims take it over from any other owner.
theorem passes_claimAll_of_ne {builder : Builder} {owner id : Text}
    (hnew : builder.entries.get? id ≠ some owner) (ids : List Text) :
    (builder.claimAll ids owner).passes id = builder.passes id +
      if id ∈ ids ∧ builder.entries.get? id ≠ none then 1 else 0 := by
  have htakeover : builder.takeover? owner id ≠ none ↔ builder.entries.get? id ≠ none := by
    rw [Ne, takeover?_eq_none]
    cases hget : builder.entries.get? id with
    | none => simp
    | some previous =>
      refine iff_of_true (fun hall => hnew ?_) (by simp)
      rw [hget, hall previous rfl]
  rw [passes_claimAll]
  simp only [htakeover]

-- All takeovers are those of the ids one by one.
theorem overwritten_eq_sum (builder : Builder) {ids : Finset Text}
    (h : ∀ id, builder.passes id ≠ 0 → id ∈ ids) :
    builder.overwritten = ∑ id ∈ ids, builder.passes id := by
  have hmem : ∀ id ∈ (builder.takeovers.map (·.id) : Multiset Text), id ∈ ids := by
    intro id hid
    obtain ⟨t, ht, rfl⟩ := List.mem_map.mp (Multiset.mem_coe.mp hid)
    exact h t.id (List.countP_pos_iff.mpr ⟨t, ht, by simp⟩).ne'
  have hcount := Multiset.sum_count_eq_card hmem
  rw [Multiset.coe_card, List.length_map] at hcount
  rw [overwritten, ← hcount]
  refine Finset.sum_congr rfl fun id _ => ?_
  rw [Multiset.count, Multiset.coe_countP, List.countP_map]
  exact List.countP_congr fun t _ => by simp [eq_comm]

end Index.Builder

/-! ## 2. Copies that yield an id -/

namespace Cache

/-- The number of copies that yield an id. -/
def claimants (cache : Cache) (world : World) (id : Text) : Nat :=
  cache.filenames.entries.countP fun entry =>
    (State.idsIn (cache.decoding world entry.1)).contains id

def yieldedIds (cache : Cache) (world : World) : Finset Text :=
  (cache.filenames.entries.flatMap fun entry =>
    State.idsIn (cache.decoding world entry.1)).toFinset

/-- The ids that two or more copies yield. -/
def sharedIds (cache : Cache) (world : World) : Finset Text :=
  (cache.yieldedIds world).filter (2 ≤ cache.claimants world ·)

section Taking

variable {files : FileTree} {arnless : List Text} {loading final : Loading}
  {entries : List (Text × Text)}

-- Every copy that yields an id takes it over from the one before it; the first takes it from none,
-- unless it was claimed before. By induction on the copies, none of which has an earlier owner.
theorem passes_of_takeAll (h : loading.takeAll files arnless entries = .ok final)
    (howners : (entries.map Prod.snd).Nodup) (id : Text)
    (hnew : ∀ owner ∈ entries.map Prod.snd, loading.builder.entries.get? id ≠ some owner) :
    final.builder.passes id = loading.builder.passes id +
      ((entries.countP fun entry =>
          (State.idsIn (State.ofFile files arnless entry.1)).contains id) -
        if loading.builder.entries.get? id = none then 1 else 0) := by
  induction entries generalizing loading with
  | nil =>
    obtain rfl := Except.ok.inj h
    simp
  | cons entry rest ih =>
    obtain ⟨path, owner⟩ := entry
    obtain ⟨next, hfirst, hrest⟩ := takeAll_cons_ok h
    rw [List.map_cons, List.nodup_cons] at howners
    rw [List.map_cons, List.forall_mem_cons] at hnew
    rw [List.countP_cons]
    rcases take_ok hfirst with ⟨descriptors, hfile, rfl⟩ | ⟨e, hfile, rfl⟩
    · have hids : State.idsIn (State.ofFile files arnless path) = descriptors.map (·.id) := by
        rw [hfile, State.idsIn]
      have hget := get?_claimAll loading.builder (descriptors.map (·.id)) owner id
      have hpasses := Index.Builder.passes_claimAll_of_ne hnew.1 (descriptors.map (·.id))
      simp only [hids]
      by_cases hid : (descriptors.map (·.id)).contains id = true
      · rw [if_pos hid] at hget ⊢
        have hrest' := ih hrest howners.2 fun other hother => by
          rw [Loading.add, hget]
          exact fun heq => howners.1 (Option.some.inj heq ▸ hother)
        rw [Loading.add, hget, if_neg (by simp), hpasses] at hrest'
        rw [hrest']
        have hmem : id ∈ descriptors.map (·.id) := List.contains_iff_mem.mp hid
        by_cases hbefore : loading.builder.entries.get? id = none
        · rw [if_neg fun h => h.2 hbefore, if_pos hbefore]
          omega
        · rw [if_pos ⟨hmem, hbefore⟩, if_neg hbefore]
          omega
      · rw [if_neg hid] at hget ⊢
        have hnone : id ∉ descriptors.map (·.id) := fun hmem =>
          hid (List.contains_iff_mem.mpr hmem)
        have hrest' := ih hrest howners.2 fun other hother => by
          rw [Loading.add, hget]
          exact hnew.2 other hother
        rw [Loading.add, hget, hpasses, if_neg fun h => hnone h.1] at hrest'
        exact hrest'
    · have hids : State.idsIn (State.ofFile files arnless path) = [] := by
        rw [hfile, State.idsIn]
      simp only [hids]
      exact @ih (loading.skip path e.message) hrest howners.2 hnew.2

end Taking

/-! ## 3. Collisions -/

-- An id is shared once less than it is yielded, and not at all if it is yielded once or not.
theorem sum_claimants_eq_iff (ids : Finset Text) (claimants : Text → Nat) :
    ∑ id ∈ ids, (claimants id - 1) = (ids.filter (2 ≤ claimants ·)).card ↔
      ∀ id ∈ ids, claimants id ≤ 2 := by
  have hle : ∀ id ∈ ids, (if 2 ≤ claimants id then 1 else 0) ≤ claimants id - 1 := by
    intro id _
    split <;> omega
  rw [Finset.card_filter, eq_comm, Finset.sum_eq_sum_iff_of_le hle]
  refine forall₂_congr fun id _ => ?_
  split <;> omega

/-- **If every copy has an owner of its own, loading counts an id that copies yield once less than
there are copies that yield it.** So it counts the shared ids exactly if no id is yielded by three or
more copies. -/
theorem collisions_eq_shared_iff (now : DateTime) {cache : Cache} {world : World}
    (hapart : LogApart world cache.filenames.entries)
    (hcaught : ∀ entry ∈ cache.filenames.entries, State.Caught (cache.decoding world entry.1))
    (howners : cache.filenames.values.Nodup) :
    ∃ inventory after, (load now cache).runIn world = (.ok inventory, after) ∧
      inventory.collisions = ∑ id ∈ cache.yieldedIds world, (cache.claimants world id - 1) ∧
      (inventory.collisions = (cache.sharedIds world).card ↔
        ∀ id, cache.claimants world id ≤ 2) := by
  simp only [decoding_eq] at hcaught
  obtain ⟨after, hload, -⟩ := load_run now hapart
  have htaken : (Loading.none.takeAll world.files cache.config.effectiveOptions.arnlessTypes
      cache.filenames.entries).toBool = true := toBool_takeAll.mpr hcaught
  rcases htake : Loading.none.takeAll world.files cache.config.effectiveOptions.arnlessTypes
      cache.filenames.entries with failure | loading
  · simp [htake, Except.toBool] at htaken
  have hpasses (id : Text) : loading.builder.passes id = cache.claimants world id - 1 := by
    have hcount := passes_of_takeAll htake howners id fun _ _ hsome => by cases hsome
    simp only [claimants, decoding_eq]
    exact hcount.trans (Nat.zero_add _)
  -- An id that no copy yields has no claimants.
  have hyielded (id : Text) (hclaimed : cache.claimants world id ≠ 0) :
      id ∈ cache.yieldedIds world := by
    obtain ⟨entry, hentry, hid⟩ := List.countP_pos_iff.mp (Nat.pos_of_ne_zero hclaimed)
    exact List.mem_toFinset.mpr (List.mem_flatMap.mpr ⟨entry, hentry, List.contains_iff_mem.mp hid⟩)
  have hsum : loading.builder.overwritten =
      ∑ id ∈ cache.yieldedIds world, (cache.claimants world id - 1) := by
    rw [loading.builder.overwritten_eq_sum fun id hid => hyielded id fun hnone => hid ?_]
    · exact Finset.sum_congr rfl fun id _ => hpasses id
    · rw [hpasses, hnone]
  have hcollisions : (loading.inventory now).collisions =
      ((∑ id ∈ cache.yieldedIds world, (cache.claimants world id - 1) : Nat) : Int) :=
    congrArg Int.ofNat hsum
  refine ⟨loading.inventory now, after, ?_, hcollisions, ?_⟩
  · rw [hload, htake]
    rfl
  · rw [hcollisions, Int.natCast_inj, sharedIds, sum_claimants_eq_iff]
    refine ⟨fun hall id => ?_, fun hall id _ => hall id⟩
    by_cases hid : id ∈ cache.yieldedIds world
    · exact hall id hid
    · have hnone : cache.claimants world id = 0 := by_contra fun hne => hid (hyielded id hne)
      omega

/-- A world in which `r`, `s` and `t` are state documents with the same resource. -/
def sharedWorld : World :=
  let document : Bytes := (documentCloud.transfer "b" "i").body
  { sampleWorld with
    files := ((sampleWorld.files.set ["w", "r"] (.file document)).set ["w", "s"]
      (.file document)).set ["w", "t"] (.file document) }

/-- A cache of copies at paths, each of which has the path as its owner. -/
def sharingCopies (paths : List Text) : Cache :=
  { Cache.make ⟨"d", none, []⟩ true 1 with
    filenames := OrderedMap.ofList (paths.map fun path => (path, path)) }

theorem logApart_sharedWorld (entries : List (Text × Text)) : LogApart sharedWorld entries :=
  fun _ _ _ _ hmem => absurd hmem List.not_mem_nil

theorem caught_sharedWorld (cache : Cache)
    (h : ∀ entry ∈ cache.filenames.entries, (Loading.none.take entry.1 entry.2
      (cache.decoding sharedWorld entry.1)).toBool = true) :
    ∀ entry ∈ cache.filenames.entries, State.Caught (cache.decoding sharedWorld entry.1) := by
  intro entry hentry
  rw [← toBool_take .none entry.1 entry.2]
  exact h entry hentry

/-- Of two copies that yield one id the second takes it over: one collision, one shared id. -/
theorem collisions_of_two_copies :
    let cache := sharingCopies ["r", "s"]
    LogApart sharedWorld cache.filenames.entries ∧
      (∀ entry ∈ cache.filenames.entries, State.Caught (cache.decoding sharedWorld entry.1)) ∧
      cache.filenames.values.Nodup ∧
      ∃ inventory after, (load sharedWorld.now cache).runIn sharedWorld = (.ok inventory, after) ∧
        inventory.collisions = 1 ∧ inventory.collisions = (cache.sharedIds sharedWorld).card := by
  intro cache
  have hcaught := caught_sharedWorld cache (by decide +kernel)
  have howners : cache.filenames.values.Nodup := by decide
  obtain ⟨inventory, after, hload, hsum, hiff⟩ := collisions_eq_shared_iff sharedWorld.now
    (logApart_sharedWorld _) hcaught howners
  have hone : ∑ id ∈ cache.yieldedIds sharedWorld, (cache.claimants sharedWorld id - 1) = 1 := by
    decide +kernel
  refine ⟨logApart_sharedWorld _, hcaught, howners, inventory, after, hload, ?_, hiff.mpr ?_⟩
  · rw [hsum, hone]
    rfl
  · exact fun id => List.countP_le_length

/-- **Of three copies that yield one id the second and the third take it over**: two collisions, though
one id is shared. -/
theorem collisions_of_three_copies :
    let cache := sharingCopies ["r", "s", "t"]
    LogApart sharedWorld cache.filenames.entries ∧
      (∀ entry ∈ cache.filenames.entries, State.Caught (cache.decoding sharedWorld entry.1)) ∧
      cache.filenames.values.Nodup ∧
      ∃ inventory, ((load sharedWorld.now cache).runIn sharedWorld).1 = .ok inventory ∧
        inventory.skipped.isEmpty = true ∧ inventory.collisions = 2 ∧
        (cache.sharedIds sharedWorld).card = 1 ∧
        inventory.collisions ≠ (cache.sharedIds sharedWorld).card := by
  intro cache
  have hshared : (cache.sharedIds sharedWorld).card = 1 := by decide +kernel
  have hresult : (((load sharedWorld.now cache).runIn sharedWorld).1.toOption.map fun inventory =>
      (inventory.skipped.isEmpty, inventory.collisions)) = some (true, 2) := by decide +kernel
  refine ⟨logApart_sharedWorld _, caught_sharedWorld cache (by decide +kernel), by decide, ?_⟩
  rcases hload : ((load sharedWorld.now cache).runIn sharedWorld).1 with failure | inventory
  · rw [hload] at hresult
    simp [Except.toOption] at hresult
  · rw [hload] at hresult
    simp only [Except.toOption, Option.map_some, Option.some.injEq, Prod.mk.injEq] at hresult
    refine ⟨inventory, rfl, hresult.1, hresult.2, hshared, ?_⟩
    rw [hresult.2, hshared]
    decide

end Cache
end StateOwnership
