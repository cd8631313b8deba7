/-!
# Ordered maps

A map that remembers the order in which its keys came. Writing a key that is already there changes
the value and keeps the place: **the position is that of the first write, the value that of the
last.**
-/

namespace StateOwnership

/-! ## 1. Lists of entries -/

namespace Entries

variable {α β : Type} [DecidableEq α]

/-- Writes an entry: in place if the key is there, at the end otherwise. -/
def put (key : α) (value : β) : List (α × β) → List (α × β)
  | [] => [(key, value)]
  | entry :: rest =>
    if entry.1 = key then (entry.1, value) :: rest else entry :: put key value rest

def get? (key : α) : List (α × β) → Option β
  | [] => none
  | entry :: rest => if entry.1 = key then some entry.2 else get? key rest

/-- The keys of `put`: as before if the key is among them, else the key follows them. -/
theorem map_fst_put (key : α) (value : β) (entries : List (α × β)) :
    (put key value entries).map Prod.fst =
      if key ∈ entries.map Prod.fst then entries.map Prod.fst
      else entries.map Prod.fst ++ [key] := by
  induction entries with
  | nil => simp [put]
  | cons entry rest ih =>
    by_cases h : entry.1 = key
    · simp [put, h]
    · have h' : ¬ key = entry.1 := fun e => h e.symm
      simp only [put, h, if_false, List.map_cons, ih, List.mem_cons, h', false_or]
      split <;> simp

/-- Writing an entry repeats no key. -/
theorem nodup_put {entries : List (α × β)} (h : (entries.map Prod.fst).Nodup) (key : α)
    (value : β) : ((put key value entries).map Prod.fst).Nodup := by
  rw [map_fst_put]
  split
  · exact h
  · rename_i hk
    rw [List.nodup_append]
    refine ⟨h, by simp, ?_⟩
    intro a ha b hb hab
    simp only [List.mem_singleton] at hb
    exact hk (hb ▸ hab ▸ ha)

theorem get?_put (key other : α) (value : β) (entries : List (α × β)) :
    get? other (put key value entries) =
      if key = other then some value else get? other entries := by
  induction entries with
  | nil => by_cases h : key = other <;> simp [put, get?, h]
  | cons entry rest ih =>
    by_cases he : entry.1 = key
    · by_cases h : key = other
      · simp [put, get?, he, h]
      · have : ¬ entry.1 = other := fun e => h (he ▸ e)
        simp [put, get?, he, h]
    · by_cases h : entry.1 = other
      · subst h
        have : ¬ key = entry.1 := fun e => he e.symm
        simp [put, get?, he, this]
      · simp [put, get?, he, h, ih]

end Entries

/-! ## 2. Maps -/

/-- A list of entries in which no key occurs twice. -/
structure OrderedMap (α β : Type) where
  entries : List (α × β)
  keys_nodup : (entries.map Prod.fst).Nodup

namespace OrderedMap

variable {α β : Type}

def empty : OrderedMap α β :=
  ⟨[], List.nodup_nil⟩

instance : EmptyCollection (OrderedMap α β) := ⟨empty⟩

instance : Inhabited (OrderedMap α β) := ⟨empty⟩

instance [DecidableEq α] [DecidableEq β] : DecidableEq (OrderedMap α β) := fun m n =>
  if h : m.entries = n.entries then
    isTrue (by cases m; cases n; cases h; rfl)
  else isFalse (fun e => h (e ▸ rfl))

def keys (m : OrderedMap α β) : List α :=
  m.entries.map Prod.fst

def values (m : OrderedMap α β) : List β :=
  m.entries.map Prod.snd

def size (m : OrderedMap α β) : Nat :=
  m.entries.length

def isEmpty (m : OrderedMap α β) : Bool :=
  m.entries.isEmpty

variable [DecidableEq α]

def insert (m : OrderedMap α β) (key : α) (value : β) : OrderedMap α β :=
  ⟨Entries.put key value m.entries, Entries.nodup_put m.keys_nodup key value⟩

def get? (m : OrderedMap α β) (key : α) : Option β :=
  Entries.get? key m.entries

def contains (m : OrderedMap α β) (key : α) : Bool :=
  (m.get? key).isSome

def insertAll (m : OrderedMap α β) (entries : List (α × β)) : OrderedMap α β :=
  entries.foldl (fun m entry => m.insert entry.1 entry.2) m

def union (m n : OrderedMap α β) : OrderedMap α β :=
  m.insertAll n.entries

def ofList (entries : List (α × β)) : OrderedMap α β :=
  (∅ : OrderedMap α β).insertAll entries

/-- Whether two maps hold the same entries, in whatever order. -/
def sameEntries [DecidableEq β] (m n : OrderedMap α β) : Bool :=
  m.size = n.size && m.entries.all fun entry => n.get? entry.1 = some entry.2

theorem get?_insert (m : OrderedMap α β) (key other : α) (value : β) :
    (m.insert key value).get? other = if key = other then some value else m.get? other :=
  Entries.get?_put key other value m.entries

theorem keys_insert (m : OrderedMap α β) (key : α) (value : β) :
    (m.insert key value).keys = if key ∈ m.keys then m.keys else m.keys ++ [key] :=
  Entries.map_fst_put key value m.entries

end OrderedMap
end StateOwnership
