import Mathlib.Data.List.Basic
import Mathlib.Data.List.Induction
import Mathlib.Data.List.Nodup
import StateOwnership.OrderedMap

/-!
# Writing many entries

Of the entries that are written under one key the last one counts. **Entries with different keys are
kept as they are written, and it does not matter whether entries are written into a map one by one or
collected in a map of their own first.**
-/

namespace StateOwnership.OrderedMap

variable {α β : Type} [DecidableEq α]

/-! ## 1. Values -/

theorem get?_empty (key : α) : (∅ : OrderedMap α β).get? key = none := rfl

theorem insertAll_cons (m : OrderedMap α β) (entry : α × β) (entries : List (α × β)) :
    m.insertAll (entry :: entries) = (m.insert entry.1 entry.2).insertAll entries := rfl

theorem insertAll_concat (m : OrderedMap α β) (entries : List (α × β)) (entry : α × β) :
    m.insertAll (entries ++ [entry]) = (m.insertAll entries).insert entry.1 entry.2 := by
  rw [insertAll, List.foldl_append]
  rfl

-- The last of the entries under a key counts.
theorem get?_insertAll (m : OrderedMap α β) (entries : List (α × β)) (key : α) :
    (m.insertAll entries).get? key =
      ((entries.filter (·.1 = key)).getLast?.map Prod.snd).or (m.get? key) := by
  induction entries generalizing m with
  | nil => rfl
  | cons entry rest ih =>
    rw [insertAll_cons, ih, get?_insert]
    by_cases hkey : entry.1 = key
    · rw [List.filter_cons_of_pos (by simpa using hkey), List.getLast?_cons, if_pos hkey]
      cases (rest.filter (·.1 = key)).getLast? <;> rfl
    · rw [List.filter_cons_of_neg (by simpa using hkey), if_neg hkey]

/-! ## 2. Entries -/

theorem entries_insert_of_not_mem {m : OrderedMap α β} {key : α} (h : key ∉ m.keys) (value : β) :
    (m.insert key value).entries = m.entries ++ [(key, value)] := by
  have hput (entries : List (α × β)) (hkey : key ∉ entries.map Prod.fst) :
      Entries.put key value entries = entries ++ [(key, value)] := by
    induction entries with
    | nil => rfl
    | cons entry rest ih =>
      rw [List.map_cons, List.mem_cons, not_or] at hkey
      rw [Entries.put, if_neg (Ne.symm hkey.1), ih hkey.2, List.cons_append]
  exact hput m.entries h

-- Entries with new and different keys are added as they are.
theorem entries_insertAll {m : OrderedMap α β} {entries : List (α × β)}
    (hnodup : (m.keys ++ entries.map Prod.fst).Nodup) :
    (m.insertAll entries).entries = m.entries ++ entries := by
  induction entries generalizing m with
  | nil => simp [insertAll]
  | cons entry rest ih =>
    have hkey : entry.1 ∉ m.keys := by
      intro hmem
      rw [List.map_cons, List.nodup_append] at hnodup
      exact hnodup.2.2 entry.1 hmem entry.1 (by simp) rfl
    have hentries := entries_insert_of_not_mem hkey entry.2
    rw [insertAll_cons, ih, hentries, List.append_assoc, List.singleton_append]
    rw [keys, hentries, List.map_append, List.append_assoc]
    exact hnodup

theorem entries_ofList {entries : List (α × β)} (h : (entries.map Prod.fst).Nodup) :
    (ofList entries).entries = entries := by
  rw [ofList, entries_insertAll]
  · rfl
  · exact h

-- What is in a map was there or is written.
theorem mem_insertAll {m : OrderedMap α β} {entries : List (α × β)} {entry : α × β}
    (h : entry ∈ (m.insertAll entries).entries) : entry ∈ m.entries ∨ entry ∈ entries := by
  have hput (key : α) (value : β) (kept : List (α × β)) (h : entry ∈ Entries.put key value kept) :
      entry ∈ kept ∨ entry = (key, value) := by
    induction kept with
    | nil => exact .inr (List.mem_singleton.mp h)
    | cons first rest ih =>
      rw [Entries.put] at h
      split at h
      · rename_i hkey
        rcases List.mem_cons.mp h with rfl | hrest
        · exact .inr (by rw [hkey])
        · exact .inl (List.mem_cons_of_mem _ hrest)
      · rcases List.mem_cons.mp h with rfl | hrest
        · exact .inl List.mem_cons_self
        · exact (ih hrest).imp_left (List.mem_cons_of_mem _)
  induction entries generalizing m with
  | nil => exact .inl h
  | cons first rest ih =>
    rcases ih h with hinserted | hrest
    · rcases hput first.1 first.2 m.entries hinserted with hkept | rfl
      · exact .inl hkept
      · exact .inr List.mem_cons_self
    · exact .inr (List.mem_cons_of_mem _ hrest)

theorem get?_eq_some_iff (m : OrderedMap α β) (key : α) (value : β) :
    m.get? key = some value ↔ (key, value) ∈ m.entries := by
  have hget (entries : List (α × β)) (hnodup : (entries.map Prod.fst).Nodup) :
      Entries.get? key entries = some value ↔ (key, value) ∈ entries := by
    induction entries with
    | nil => simp [Entries.get?]
    | cons entry rest ih =>
      rw [List.map_cons, List.nodup_cons] at hnodup
      rw [Entries.get?, List.mem_cons]
      by_cases hkey : entry.1 = key
      · have hnew : (key, value) ∉ rest := fun hmem =>
          hnodup.1 (hkey ▸ List.mem_map_of_mem (f := Prod.fst) hmem)
        rw [if_pos hkey, Option.some.injEq, or_iff_left hnew, Prod.ext_iff]
        exact ⟨fun h => ⟨hkey.symm, h.symm⟩, fun h => h.2.symm⟩
      · have hne : (key, value) ≠ entry := fun h => hkey (h ▸ rfl)
        rw [if_neg hkey, ih hnodup.2, or_iff_right hne]
  exact hget m.entries m.keys_nodup

-- Maps that agree on every key have the same entries in some order.
theorem perm_of_get?_eq {m n : OrderedMap α β} (h : ∀ key, m.get? key = n.get? key) :
    m.entries.Perm n.entries := by
  refine (List.perm_ext_iff_of_nodup m.keys_nodup.of_map n.keys_nodup.of_map).mpr ?_
  rintro ⟨key, value⟩
  rw [← get?_eq_some_iff, ← get?_eq_some_iff, h]

-- A map is what its entries make.
theorem get?_ofList_entries (m : OrderedMap α β) (key : α) :
    (ofList m.entries).get? key = m.get? key := by
  rw [get?, entries_ofList m.keys_nodup]
  rfl

-- The entries of a map are its keys with their values.
theorem entries_eq_map_keys (m : OrderedMap α β) (default : β) :
    m.entries = m.keys.map fun key => (key, (m.get? key).getD default) := by
  have hput (entries : List (α × β)) (hnodup : (entries.map Prod.fst).Nodup) : entries =
      (entries.map Prod.fst).map fun key => (key, (Entries.get? key entries).getD default) := by
    induction entries with
    | nil => rfl
    | cons entry rest ih =>
      rw [List.map_cons, List.nodup_cons] at hnodup
      have hrest : rest = (rest.map Prod.fst).map fun key =>
          (key, (Entries.get? key (entry :: rest)).getD default) := by
        refine (ih hnodup.2).trans (List.map_congr_left fun key hkey => ?_)
        rw [Entries.get?, if_neg fun heq : entry.1 = key => hnodup.1 (heq ▸ hkey)]
      rw [List.map_cons, List.map_cons, ← hrest, Entries.get?, if_pos rfl]
      rfl
  exact hput m.entries m.keys_nodup

theorem get?_union (m n : OrderedMap α β) (key : α) :
    (m.union n).get? key = (n.get? key).or (m.get? key) := by
  have hlast := get?_insertAll ∅ n.entries key
  rw [get?_empty, Option.or_none] at hlast
  rw [union, get?_insertAll, ← hlast, ← get?_ofList_entries n key]
  rfl

-- A value that follows a list is kept if it is new.
theorem eraseDups_concat {α : Type} [BEq α] [LawfulBEq α] (values : List α) (value : α) :
    (values ++ [value]).eraseDups =
      if value ∈ values then values.eraseDups else values.eraseDups ++ [value] := by
  rw [List.eraseDups_append]
  by_cases hmem : value ∈ values <;> simp [List.removeAll, List.eraseDups_cons, hmem]

-- Values without repetitions stand in the order in which they come first.
theorem pairwise_eraseDups {α : Type} [BEq α] [LawfulBEq α] (values : List α) :
    values.eraseDups.Pairwise fun value other => values.idxOf value < values.idxOf other := by
  induction values using List.reverseRecOn with
  | nil => exact .nil
  | append_singleton init last ih =>
    have hbefore : init.eraseDups.Pairwise fun value other =>
        (init ++ [last]).idxOf value < (init ++ [last]).idxOf other := by
      refine ih.imp_of_mem fun {value other} hvalue hother hlt => ?_
      rwa [List.idxOf_append_of_mem (List.mem_eraseDups.mp hvalue),
        List.idxOf_append_of_mem (List.mem_eraseDups.mp hother)]
    rw [eraseDups_concat]
    split
    · exact hbefore
    · rename_i hnew
      refine List.pairwise_append.mpr ⟨hbefore, List.pairwise_singleton _ _, ?_⟩
      intro value hvalue other hother
      obtain rfl := List.mem_singleton.mp hother
      rw [List.idxOf_append_of_mem (List.mem_eraseDups.mp hvalue),
        List.idxOf_append_of_notMem hnew]
      exact Nat.lt_add_right _ (List.idxOf_lt_length_iff.mpr (List.mem_eraseDups.mp hvalue))

-- Of the values that meet a condition the last one is that whose first appearance comes last.
theorem getLast?_filter_eraseDups {α : Type} [BEq α] [LawfulBEq α] {values : List α}
    {keep : α → Bool} {value : α} (hmem : value ∈ values) (hkeep : keep value = true)
    (hlast : ∀ other ∈ values, keep other = true → values.idxOf other ≤ values.idxOf value) :
    (values.eraseDups.filter keep).getLast? = some value := by
  have hvalue : value ∈ values.eraseDups.filter keep :=
    List.mem_filter.mpr ⟨List.mem_eraseDups.mpr hmem, hkeep⟩
  have hsorted := (pairwise_eraseDups values).sublist (List.filter_sublist (p := keep))
  cases hfound : (values.eraseDups.filter keep).getLast? with
  | none =>
    rw [List.getLast?_eq_none_iff] at hfound
    simp [hfound] at hvalue
  | some other =>
    obtain ⟨init, hinit⟩ := List.getLast?_eq_some_iff.mp hfound
    have hother := List.mem_filter.mp (List.mem_of_getLast? hfound)
    rw [hinit] at hvalue hsorted
    rcases List.mem_append.mp hvalue with hinside | hend
    · -- It would come before the last one, which does not come later.
      have hlt := (List.pairwise_append.mp hsorted).2.2 value hinside other (by simp)
      have hle := hlast other (List.mem_eraseDups.mp hother.1) hother.2
      omega
    · rw [List.mem_singleton.mp hend]

-- Keys stand in the order in which they are first written.
theorem keys_ofList [BEq α] [LawfulBEq α] (entries : List (α × β)) :
    (ofList entries).keys = (entries.map Prod.fst).eraseDups := by
  induction entries using List.reverseRecOn with
  | nil => rfl
  | append_singleton init entry ih =>
    have hinsert : ofList (init ++ [entry]) = (ofList init).insert entry.1 entry.2 :=
      insertAll_concat ∅ init entry
    rw [hinsert, keys_insert, ih, List.map_append, List.map_singleton, eraseDups_concat]
    simp only [List.mem_eraseDups]

/-! ## 3. Writing entries that were collected first -/

theorem ext {α β : Type} {m n : OrderedMap α β} (h : m.entries = n.entries) : m = n := by
  cases m
  cases n
  cases h
  rfl

-- Of two writes of one key the second counts.
theorem insert_insert (m : OrderedMap α β) (key : α) (first last : β) :
    (m.insert key first).insert key last = m.insert key last := by
  have hput (entries : List (α × β)) :
      Entries.put key last (Entries.put key first entries) = Entries.put key last entries := by
    induction entries with
    | nil => simp [Entries.put]
    | cons entry rest ih =>
      by_cases hkey : entry.1 = key
      · simp [Entries.put, hkey]
      · simp [Entries.put, hkey, ih]
  exact ext (hput m.entries)

-- A key that is there keeps its place, so its write can come before that of another key.
theorem insert_comm {m : OrderedMap α β} {key other : α} (hmem : key ∈ m.keys) (hne : key ≠ other)
    (value otherValue : β) : (m.insert other otherValue).insert key value =
      (m.insert key value).insert other otherValue := by
  have hput (entries : List (α × β)) (hmem : key ∈ entries.map Prod.fst) :
      Entries.put key value (Entries.put other otherValue entries) =
        Entries.put other otherValue (Entries.put key value entries) := by
    induction entries with
    | nil => simp at hmem
    | cons entry rest ih =>
      by_cases hkey : entry.1 = key
      · simp [Entries.put, hkey, hne]
      by_cases hother : entry.1 = other
      · simp [Entries.put, hother, hne.symm]
      · have hrest : key ∈ rest.map Prod.fst := by
          rw [List.map_cons, List.mem_cons] at hmem
          exact hmem.resolve_left (Ne.symm hkey)
        simp [Entries.put, hkey, hother, ih hrest]
  exact ext (hput m.entries hmem)

theorem insert_insertAll_of_mem {m : OrderedMap α β} {key : α} {entries : List (α × β)}
    (hmem : key ∈ m.keys) (hnew : key ∉ entries.map Prod.fst) (value : β) :
    (m.insertAll entries).insert key value = (m.insert key value).insertAll entries := by
  induction entries generalizing m with
  | nil => rfl
  | cons entry rest ih =>
    rw [List.map_cons, List.mem_cons, not_or] at hnew
    have hmem' : key ∈ (m.insert entry.1 entry.2).keys := by
      rw [keys_insert]
      split
      · exact hmem
      · exact List.mem_append_left _ hmem
    rw [insertAll_cons, insertAll_cons, ih hmem' hnew.2, insert_comm hmem hnew.1]

-- A write to collected entries can wait until they have been written.
theorem union_insert (m n : OrderedMap α β) (key : α) (value : β) :
    m.union (n.insert key value) = (m.union n).insert key value := by
  have hput (m : OrderedMap α β) (entries : List (α × β)) (hnodup : (entries.map Prod.fst).Nodup) :
      m.insertAll (Entries.put key value entries) = (m.insertAll entries).insert key value := by
    induction entries generalizing m with
    | nil => rfl
    | cons entry rest ih =>
      rw [List.map_cons, List.nodup_cons] at hnodup
      rw [Entries.put, insertAll_cons]
      split
      · -- The key has its place already, and is not written again before the end.
        rename_i hkey
        have hmem : key ∈ (m.insert entry.1 entry.2).keys := by
          rw [keys_insert, hkey]
          split
          · assumption
          · simp
        rw [insertAll_cons, insert_insertAll_of_mem hmem (hkey ▸ hnodup.1), hkey, insert_insert]
      · rw [insertAll_cons, ih _ hnodup.2]
  exact hput m n.entries n.keys_nodup

/-- **Entries that were collected in a map of their own are written as if one by one.** -/
theorem union_ofList (m : OrderedMap α β) (entries : List (α × β)) :
    m.union (ofList entries) = m.insertAll entries := by
  induction entries using List.reverseRecOn with
  | nil => rfl
  | append_singleton init entry ih =>
    rw [ofList, insertAll_concat, union_insert, insertAll_concat, ← ih]
    rfl

end StateOwnership.OrderedMap
