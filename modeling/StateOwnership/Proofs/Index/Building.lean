import StateOwnership.Proofs.Cache.Collisions

/-!
# Runs of a builder

A builder is used many times: descriptors are added for an owner, and indexes are built in between.
The builder writes its owners to a table of its own in place, and every index keeps its entries in a
table. **Every id that was added is kept in the order of first appearance with the owner of its last
add, every change of the owner from one add of an id to the next is counted, and no index that was
built changes afterwards.**
-/

namespace StateOwnership.Index

/-! ## 1. Claims one after the other -/

/-- How often a value differs from the one before it. -/
def changes : List Text → Nat
  | [] => 0
  | [_] => 0
  | first :: second :: rest => (if first = second then 0 else 1) + changes (second :: rest)

/-- The owners that claim an id, in order. -/
def ownersOf (claims : List (Text × Text)) (id : Text) : List Text :=
  (claims.filter (·.1 = id)).map Prod.snd

theorem changes_concat (owners : List Text) (owner : Text) : changes (owners ++ [owner]) =
    changes owners + if ∀ last ∈ owners.getLast?, last = owner then 0 else 1 := by
  induction owners with
  | nil => simp [changes]
  | cons first rest ih =>
    cases rest with
    | nil => simp [changes]
    | cons second rest =>
      rw [List.cons_append, List.cons_append, changes, ← List.cons_append, ih, changes,
        List.getLast?_cons_cons, Nat.add_assoc]

theorem ownersOf_concat (claims : List (Text × Text)) (other owner id : Text) :
    ownersOf (claims ++ [(other, owner)]) id =
      if other = id then ownersOf claims id ++ [owner] else ownersOf claims id := by
  rw [ownersOf, ownersOf, List.filter_append, List.map_append]
  split
  · rename_i hid
    simp [hid]
  · rename_i hid
    simp [hid]

namespace Builder

/-- What a builder has made of claims, each of an id by an owner: the owners are those that
are written last, and an id has passed on as often as one owner that claims it differs from the next. -/
structure Made (claims : List (Text × Text)) (builder : Builder) : Prop where
  entries : builder.entries = .ofList claims
  passes : ∀ id, builder.passes id = changes (ownersOf claims id)

variable {claims : List (Text × Text)} {builder : Builder}

theorem Made.get? (h : Made claims builder) (id : Text) :
    builder.entries.get? id = (ownersOf claims id).getLast? := by
  rw [h.entries, OrderedMap.ofList, OrderedMap.get?_insertAll, OrderedMap.get?_empty,
    Option.or_none, ownersOf, List.getLast?_map]

theorem made_empty : Made [] ∅ :=
  ⟨rfl, fun _ => rfl⟩

-- A claim takes an id over if and only if the last claim of it is by another owner.
theorem Made.claim (h : Made claims builder) (owner id : Text) :
    Made (claims ++ [(id, owner)]) (builder.claim owner id) := by
  refine ⟨?_, fun other => ?_⟩
  · rw [Builder.claim, h.entries]
    exact (OrderedMap.insertAll_concat ∅ claims (id, owner)).symm
  · have htaken : builder.takeover? owner other = none ↔
        ∀ last ∈ (ownersOf claims other).getLast?, last = owner := by
      rw [takeover?_eq_none, h.get?]
    rw [passes_claim, h.passes, ownersOf_concat]
    by_cases hid : id = other
    · rw [if_pos hid, changes_concat]
      simp only [hid, true_and, ne_eq, htaken, ite_not]
    · rw [if_neg hid, if_neg fun hboth => hid hboth.1, Nat.add_zero]

theorem Made.claimAll (h : Made claims builder) (ids : List Text) (owner : Text) :
    Made (claims ++ ids.map fun id => (id, owner)) (builder.claimAll ids owner) := by
  induction ids generalizing claims builder with
  | nil => simpa [Builder.claimAll] using h
  | cons id rest ih =>
    have hrest := ih (h.claim owner id)
    rwa [List.append_assoc] at hrest

-- Every takeover is one of some id that is claimed.
theorem Made.overwritten (h : Made claims builder) : builder.overwritten =
    ∑ id ∈ (claims.map Prod.fst).toFinset, changes (ownersOf claims id) := by
  rw [builder.overwritten_eq_sum fun id hid => ?_]
  · exact Finset.sum_congr rfl fun id _ => h.passes id
  · rw [List.mem_toFinset]
    by_contra hnew
    have hnone : claims.filter (·.1 = id) = [] := by
      rw [List.filter_eq_nil_iff]
      exact fun claim hclaim hid => hnew (of_decide_eq_true hid ▸ List.mem_map_of_mem hclaim)
    exact hid (by rw [h.passes, ownersOf, hnone]; rfl)

end Builder

/-! ## 2. Tables that are written in place -/

inductive Use where
  | add (descriptors : List State.Descriptor) (owner : Text)
  | build

/-- A builder and the indexes that were built with it. The builder keeps its owners in its own table,
an index its entries in another; tables are known by their numbers. -/
structure Workshop where
  tables : List (OrderedMap Text Text)
  own : Nat
  takeovers : List Takeover
  built : List Nat

namespace Workshop

def table (workshop : Workshop) (number : Nat) : OrderedMap Text Text :=
  workshop.tables[number]?.getD ∅

def builder (workshop : Workshop) : Builder :=
  ⟨workshop.table workshop.own, workshop.takeovers⟩

def index (workshop : Workshop) (number : Nat) : Index :=
  ⟨workshop.table number⟩

/-- The indexes that were built, as they stand, the first one first. -/
def indexes (workshop : Workshop) : List Index :=
  workshop.built.map workshop.index

/-- Before the builder is used: its table is the only one, and empty. -/
def start : Workshop := ⟨[∅], 0, [], []⟩

/-- After one use. Claims are written to the builder's own table; an index gets a new table, to which
the entries are copied. -/
def use (workshop : Workshop) : Use → Workshop
  | .add descriptors owner =>
    let builder := workshop.builder.claimAll (descriptors.map (·.id)) owner
    { workshop with
      tables := workshop.tables.set workshop.own builder.entries
      takeovers := builder.takeovers }
  | .build =>
    { workshop with
      tables := workshop.tables ++ [workshop.builder.build.entries]
      built := workshop.built ++ [workshop.tables.length] }

def run (uses : List Use) : Workshop :=
  uses.foldl use start

/-- The builder has a table, and every index that was built has one, which is not the builder's. -/
structure Apart (workshop : Workshop) : Prop where
  own_lt : workshop.own < workshop.tables.length
  built_lt : ∀ number ∈ workshop.built, number < workshop.tables.length
  built_ne : ∀ number ∈ workshop.built, number ≠ workshop.own

variable {workshop : Workshop}

theorem apart_start : Apart start :=
  ⟨Nat.one_pos, by simp [start], by simp [start]⟩

theorem Apart.use (h : Apart workshop) (use : Use) : Apart (workshop.use use) := by
  cases use with
  | add descriptors owner =>
    refine ⟨?_, fun number hbuilt => ?_, h.built_ne⟩
    · simpa [Workshop.use] using h.own_lt
    · simpa [Workshop.use] using h.built_lt number hbuilt
  | build =>
    have hown := h.own_lt
    refine ⟨?_, fun number hbuilt => ?_, fun number hbuilt => ?_⟩
    · simp only [Workshop.use, List.length_append, List.length_singleton]
      omega
    · rcases List.mem_append.mp hbuilt with hbefore | hnew
      · have hlt := h.built_lt number hbefore
        simp only [Workshop.use, List.length_append, List.length_singleton]
        omega
      · simp [Workshop.use, List.mem_singleton.mp hnew]
    · rcases List.mem_append.mp hbuilt with hbefore | hnew
      · exact h.built_ne number hbefore
      · rw [List.mem_singleton.mp hnew]
        exact hown.ne'

-- Only the builder's own table is ever written to.
theorem table_use {number : Nat} (hlt : number < workshop.tables.length)
    (hne : number ≠ workshop.own) (use : Use) :
    (workshop.use use).table number = workshop.table number := by
  cases use with
  | add descriptors owner => rw [table, Workshop.use, List.getElem?_set_ne hne.symm, table]
  | build => rw [table, Workshop.use, List.getElem?_append_left hlt, table]

theorem builder_add (h : Apart workshop) (descriptors : List State.Descriptor) (owner : Text) :
    (workshop.use (.add descriptors owner)).builder =
      workshop.builder.claimAll (descriptors.map (·.id)) owner := by
  rw [builder, table]
  simp only [Workshop.use, List.getElem?_set_self h.own_lt, Option.getD_some]

theorem builder_build (h : Apart workshop) :
    (workshop.use .build).builder = workshop.builder := by
  rw [builder, builder, table, table]
  simp only [Workshop.use, List.getElem?_append_left h.own_lt]

-- The indexes that were built stay as they are, and a new one is what the builder gives.
theorem indexes_add (h : Apart workshop) (descriptors : List State.Descriptor) (owner : Text) :
    (workshop.use (.add descriptors owner)).indexes = workshop.indexes := by
  refine List.map_congr_left fun number hbuilt => ?_
  rw [index, table_use (h.built_lt number hbuilt) (h.built_ne number hbuilt), index]

theorem indexes_build (h : Apart workshop) :
    (workshop.use .build).indexes = workshop.indexes ++ [workshop.builder.build] := by
  have hkept : workshop.built.map (workshop.use .build).index = workshop.built.map workshop.index :=
    List.map_congr_left fun number hbuilt => by
      rw [index, table_use (h.built_lt number hbuilt) (h.built_ne number hbuilt), index]
  have hnew : (workshop.use .build).index workshop.tables.length = workshop.builder.build := by
    rw [index, table]
    simp [Workshop.use, Builder.build]
  rw [indexes, indexes, ← hkept, ← hnew]
  exact List.map_append

end Workshop

/-! ## 3. Runs -/

/-- What is claimed in uses: every id that is added, with the owner it is added for, in order. -/
def claimsIn (uses : List Use) : List (Text × Text) :=
  uses.flatMap fun
    | .add descriptors owner => descriptors.map fun descriptor => (descriptor.id, owner)
    | .build => []

/-- For every index that is built, the uses before it is. -/
def beforeBuilds : List Use → List (List Use)
  | [] => []
  | .build :: rest => [] :: (beforeBuilds rest).map (.build :: ·)
  | .add descriptors owner :: rest => (beforeBuilds rest).map (.add descriptors owner :: ·)

/-- What adds alone make of a builder. -/
def Builder.after (uses : List Use) : Builder :=
  uses.foldl (fun builder use =>
    match use with
    | .add descriptors owner => builder.claimAll (descriptors.map (·.id)) owner
    | .build => builder) ∅

theorem Builder.after_concat (uses : List Use) (use : Use) : Builder.after (uses ++ [use]) =
    match use with
    | .add descriptors owner => (Builder.after uses).claimAll (descriptors.map (·.id)) owner
    | .build => Builder.after uses := by
  rw [Builder.after, List.foldl_append]
  rfl

theorem beforeBuilds_concat (uses : List Use) (use : Use) : beforeBuilds (uses ++ [use]) =
    beforeBuilds uses ++
      match use with
      | .add _ _ => []
      | .build => [uses] := by
  induction uses with
  | nil => cases use <;> rfl
  | cons first rest ih => cases first <;> cases use <;> simp [beforeBuilds, ih]

theorem Builder.made_after (uses : List Use) : Made (claimsIn uses) (Builder.after uses) := by
  induction uses using List.reverseRecOn with
  | nil => exact made_empty
  | append_singleton init use ih =>
    rw [claimsIn, List.flatMap_append, ← claimsIn, after_concat]
    cases use with
    | add descriptors owner =>
      simpa [Function.comp_def] using ih.claimAll (descriptors.map (·.id)) owner
    | build => simpa using ih

-- By induction on the uses: what holds after some of them is carried over one more.
theorem Workshop.run_eq (uses : List Use) : Apart (run uses) ∧
    (run uses).builder = Builder.after uses ∧
    (run uses).indexes = (beforeBuilds uses).map fun before => (Builder.after before).build := by
  induction uses using List.reverseRecOn with
  | nil => exact ⟨apart_start, rfl, rfl⟩
  | append_singleton init use ih =>
    obtain ⟨hapart, hbuilder, hindexes⟩ := ih
    have hrun : run (init ++ [use]) = (run init).use use := by
      rw [run, List.foldl_append]
      rfl
    rw [hrun, Builder.after_concat, beforeBuilds_concat]
    refine ⟨hapart.use use, ?_⟩
    cases use with
    | add descriptors owner =>
      rw [builder_add hapart, indexes_add hapart, hbuilder, hindexes, List.append_nil]
      exact ⟨rfl, rfl⟩
    | build =>
      rw [builder_build hapart, indexes_build hapart, hbuilder, hindexes, List.map_append]
      exact ⟨rfl, rfl⟩

/-- **After any uses of a builder, the index that it gives holds the ids that were added in the order
of their first appearance, each with the owner of its last add; the takeovers are the changes from
one owner to the next among the adds of each id; and every index that was built before is still what
the adds before it make.** -/
theorem run_accounted (uses : List Use) :
    let workshop := Workshop.run uses
    let index := workshop.builder.build
    let ids := (claimsIn uses).map Prod.fst
    index.ids = ids.eraseDups ∧
      (∀ id, index.lookup id = (ownersOf (claimsIn uses) id).getLast?) ∧
      workshop.builder.overwritten = ∑ id ∈ ids.toFinset, changes (ownersOf (claimsIn uses) id) ∧
      workshop.indexes = (beforeBuilds uses).map fun before => (Builder.after before).build := by
  intro workshop index ids
  obtain ⟨-, hbuilder, hindexes⟩ := Workshop.run_eq uses
  have hmade : Builder.Made (claimsIn uses) workshop.builder := by
    rw [show workshop.builder = _ from hbuilder]
    exact Builder.made_after uses
  refine ⟨?_, hmade.get?, hmade.overwritten, hindexes⟩
  show workshop.builder.entries.keys = _
  rw [hmade.entries, OrderedMap.keys_ofList]

/-- An index keeps the owner of a resource that is added for another one after it was built. -/
example (resource : State.Descriptor) : (Workshop.run [.add [resource] "a", .build,
    .add [resource] "b"]).indexes = [⟨.ofList [(resource.id, "a")]⟩] := rfl

end StateOwnership.Index
