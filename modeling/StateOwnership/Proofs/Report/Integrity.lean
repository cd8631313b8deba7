import StateOwnership.Proofs.Cache.Reordering
import StateOwnership.Proofs.FileTree.Effects
import StateOwnership.Proofs.Json.RoundTrip
import StateOwnership.Report.Document

/-!
# Reports that are read again

A report is written from the index, from the number of resources of each owner and from the copies
that were passed over, which are counted apart from each other. **The report on a cache that was loaded
is read as the document that it was written from, its file holds its text, and its counts agree**: with
what it lists, with each other and with the number of copies of the cache.
-/

namespace StateOwnership

/-! ## 1. The time of loading -/

namespace Text

theorem ascii_decimalPadded (width n : Nat) : Ascii (decimalPadded width n) := by
  refine ascii_append.mpr ⟨fun c hc => ?_, ascii_ofNat n⟩
  rw [List.eq_of_mem_replicate hc]
  decide

theorem ascii_joinWith {mark : Text} {parts : List Text} (hmark : Ascii mark)
    (h : ∀ t ∈ parts, Ascii t) : Ascii (joinWith mark parts) := by
  induction parts with
  | nil => exact ascii_nil
  | cons t more ih =>
    rw [List.forall_mem_cons] at h
    cases more with
    | nil => simpa [joinWith] using h.1
    | cons next others =>
      have hjoined : joinWith mark (t :: next :: others) =
          t ++ (mark ++ joinWith mark (next :: others)) := by
        simp [joinWith]
      rw [hjoined, ascii_append, ascii_append]
      exact ⟨h.1, hmark, ih h.2⟩

end Text

namespace DateTime

theorem ascii_fields {mark : Text} (hmark : Text.Ascii mark) (numbers : List Nat) :
    Text.Ascii (fields mark numbers) := by
  refine Text.ascii_joinWith hmark fun t ht => ?_
  obtain ⟨n, -, rfl⟩ := List.mem_map.mp ht
  exact Text.ascii_decimalPadded 2 n

theorem ascii_fraction (microsecond : Nat) : Text.Ascii (fraction microsecond) := by
  unfold fraction
  split
  · exact Text.ascii_nil
  · exact Text.ascii_append.mpr ⟨by decide, Text.ascii_decimalPadded 6 microsecond⟩

theorem ascii_offsetForm (offset : Int) : Text.Ascii (offsetForm offset) := by
  simp only [offsetForm, Text.ascii_append]
  refine ⟨⟨?_, ascii_fields (by decide) _⟩, ?_⟩
  · split <;> decide
  · split
    · exact Text.ascii_nil
    · simp only [Text.ascii_append]
      exact ⟨⟨by decide, Text.ascii_decimalPadded 2 _⟩, ascii_fraction _⟩

theorem ascii_standard (d : DateTime) : Text.Ascii d.standard := by
  simp only [standard, Text.ascii_append]
  refine ⟨⟨⟨⟨⟨⟨Text.ascii_decimalPadded 4 _, by decide⟩, ascii_fields (by decide) _⟩, by decide⟩,
    ascii_fields (by decide) _⟩, ascii_fraction _⟩, ?_⟩
  cases d.offset with
  | none => exact Text.ascii_nil
  | some offset => exact ascii_offsetForm offset

end DateTime

/-! ## 2. Resources of each owner -/

namespace OrderedMap

variable {α : Type} [DecidableEq α]

-- A write replaces what was counted under its key.
theorem sum_values_insert (m : OrderedMap α Nat) (key : α) (value : Nat) :
    (m.insert key value).values.sum + (m.get? key).getD 0 = m.values.sum + value := by
  have hput (entries : List (α × Nat)) :
      ((Entries.put key value entries).map Prod.snd).sum + (Entries.get? key entries).getD 0 =
        (entries.map Prod.snd).sum + value := by
    induction entries with
    | nil => simp [Entries.put, Entries.get?]
    | cons entry rest ih =>
      rw [Entries.put, Entries.get?]
      split
      · simp only [List.map_cons, List.sum_cons, Option.getD_some]
        omega
      · simp only [List.map_cons, List.sum_cons]
        omega
  exact hput m.entries

end OrderedMap

namespace Index

theorem sum_countOwners (counts : OrderedMap Text Nat) (values : List Text) :
    (values.foldl countOwner counts).values.sum = counts.values.sum + values.length := by
  induction values generalizing counts with
  | nil => rfl
  | cons owner rest ih =>
    have hone := counts.sum_values_insert owner ((counts.get? owner).getD 0 + 1)
    rw [List.foldl_cons, ih, List.length_cons, countOwner]
    omega

-- Every resource is counted for one owner.
theorem sum_owners (index : Index) : index.owners.values.sum = index.size := by
  have hsum := sum_countOwners ∅ index.entries.values
  rw [owners, hsum, size, OrderedMap.size, OrderedMap.values, OrderedMap.values, List.length_map]
  exact Nat.zero_add _

theorem mem_owners (index : Index) (owner : Text) (count : Nat) :
    (owner, count) ∈ index.owners.entries ↔
      owner ∈ index.entries.values ∧ count = index.entries.values.count owner := by
  rw [← OrderedMap.get?_eq_some_iff, owners, get?_countOwners, OrderedMap.get?_empty]
  split
  · rename_i hmem
    simp [hmem, eq_comm]
  · rename_i hmem
    simp [hmem]

theorem owners_le_size {index : Index} {owner : Text} {count : Nat}
    (h : (owner, count) ∈ index.owners.entries) : count ≤ index.size := by
  rw [((mem_owners index owner count).mp h).2]
  exact List.count_le_length.trans_eq (List.length_map _)

end Index

/-! ## 3. Reading the text of a report -/

namespace Json

theorem long?_int (i : Int) : long? (.int i) = none ↔ i.natAbs < 10 ^ Text.digitLimit := by
  rw [long?, longInteger?]
  split <;> simp [*]

theorem longMember?_eq_none {ms : List (Text × Json)} :
    longMember? ms = none ↔ ∀ m ∈ ms, long? m.2 = none := by
  induction ms with
  | nil => simp [longMember?]
  | cons m rest ih => rw [longMember?, Option.or_eq_none_iff, ih, List.forall_mem_cons]

theorem long?_ofTexts (entries : List (Text × Text)) : long? (ofTexts entries) = none := by
  rw [ofTexts, long?, longMember?_eq_none]
  intro m hm
  obtain ⟨entry, -, rfl⟩ := List.mem_map.mp hm
  rfl

theorem plain_ofTexts {depth : Nat} (m : OrderedMap Text Text)
    (h : ∀ t ∈ m.keys ++ m.values, ∀ c ∈ t, c.isSurrogate = false) :
    Plain (depth + 1) (ofTexts m.entries) := by
  rw [List.forall_mem_append] at h
  refine .obj ?_ ?_ ?_
  · rw [List.map_map]
    exact m.keys_nodup
  · intro member hmember
    obtain ⟨entry, hentry, rfl⟩ := List.mem_map.mp hmember
    exact h.1 entry.1 (List.mem_map_of_mem hentry)
  · intro member hmember
    obtain ⟨entry, hentry, rfl⟩ := List.mem_map.mp hmember
    exact .str (h.2 entry.2 (List.mem_map_of_mem hentry))

/-- Different names in ASCII. -/
abbrev Labels (names : List Text) : Prop :=
  names.Nodup ∧ ∀ name ∈ names, Text.Ascii name

theorem Plain.labelled {depth : Nat} {names : List Text} {ms : List (Text × Json)}
    (hnames : Labels names) (heq : ms.map Prod.fst = names) (h : ∀ m ∈ ms, Plain depth m.2) :
    Plain (depth + 1) (.obj ms) := by
  subst heq
  exact .obj hnames.1 (fun m hm => (hnames.2 m.1 (List.mem_map_of_mem hm)).isSurrogate_eq) h

end Json

namespace Inventory

/-- The texts that a report tells: the ids with their owners, and the paths of the copies that were
passed over with what is said about them. -/
def texts (inventory : Inventory) : List Text :=
  (inventory.index.entries.keys ++ inventory.index.entries.values) ++
    (inventory.skipped.keys ++ inventory.skipped.values)

def counts (inventory : Inventory) : List Nat :=
  [inventory.index.size, inventory.filesLoaded.length, inventory.skippedCount,
    inventory.collisions.natAbs]

end Inventory

namespace Report

variable {inventory : Inventory}

theorem plain_summary {depth : Nat}
    (h : ∀ t ∈ inventory.index.entries.values, ∀ c ∈ t, c.isSurrogate = false) :
    Json.Plain (depth + 1) (summary inventory) := by
  refine .obj ?_ ?_ ?_
  · rw [List.map_map]
    exact inventory.index.owners.keys_nodup
  · intro member hmember
    obtain ⟨⟨owner, count⟩, hentry, rfl⟩ := List.mem_map.mp hmember
    exact h owner ((inventory.index.mem_owners owner count).mp hentry).1
  · intro member hmember
    obtain ⟨entry, -, rfl⟩ := List.mem_map.mp hmember
    exact .int _

theorem plain_metadata {depth : Nat} (inventory : Inventory) :
    Json.Plain (depth + 1) (metadata inventory) := by
  have hnames : Json.Labels ["resource_count", "files_loaded", "files_skipped", "collisions",
      "load_time"] := by decide
  refine .labelled hnames rfl ?_
  simp only [List.forall_mem_cons, List.not_mem_nil, false_implies, implies_true, and_true]
  exact ⟨.int _, .int _, .int _, .int _, .str inventory.loadTime.ascii_standard.isSurrogate_eq⟩

theorem plain_document {depth : Nat} (h : ∀ t ∈ inventory.texts, ∀ c ∈ t, c.isSurrogate = false) :
    Json.Plain (depth + 2) (document inventory) := by
  have hnames : Json.Labels ["metadata", "summary_by_state_file", "skipped_files",
      "resources"] := by decide
  rw [Inventory.texts, List.forall_mem_append] at h
  have howners := (List.forall_mem_append.mp h.1).2
  refine .labelled hnames rfl ?_
  simp only [List.forall_mem_cons, List.not_mem_nil, false_implies, implies_true, and_true]
  exact ⟨plain_metadata inventory, plain_summary howners, Json.plain_ofTexts _ h.2,
    Json.plain_ofTexts _ h.1⟩

theorem long?_metadata (inventory : Inventory) : Json.long? (metadata inventory) = none ↔
    ∀ count ∈ inventory.counts, count < 10 ^ Text.digitLimit := by
  have htime : Json.long? (.str inventory.loadTime.standard) = none := rfl
  rw [metadata, Json.long?, Json.longMember?_eq_none, Inventory.counts]
  simp only [List.forall_mem_cons, List.not_mem_nil, false_implies, implies_true, and_true,
    Json.long?_int, Int.natAbs_natCast, htime]

theorem long?_summary (inventory : Inventory) : Json.long? (summary inventory) = none ↔
    ∀ entry ∈ inventory.index.owners.entries, entry.2 < 10 ^ Text.digitLimit := by
  rw [summary, Json.long?, Json.longMember?_eq_none, List.forall_mem_map]
  simp only [Json.long?_int, Int.natAbs_natCast]

-- No owner has more resources than there are.
theorem long?_document (inventory : Inventory) : Json.long? (document inventory) = none ↔
    ∀ count ∈ inventory.counts, count < 10 ^ Text.digitLimit := by
  rw [document, Json.long?, Json.longMember?_eq_none]
  simp only [List.forall_mem_cons, List.not_mem_nil, false_implies, implies_true, and_true,
    Json.long?_ofTexts, long?_metadata, long?_summary]
  refine and_iff_left_of_imp fun h entry hentry => ?_
  exact (Index.owners_le_size hentry).trans_lt (h _ List.mem_cons_self)

/-- **The text of a report is read as the document that it was written from, unless one of the counts
has more digits than are read.** -/
theorem ofText_render (h : ∀ t ∈ inventory.texts, ∀ c ∈ t, c.isSurrogate = false)
    (settings : Settings) :
    Json.ofText (settings.render inventory) = .ok (document inventory) ↔
      ∀ count ∈ inventory.counts, count < 10 ^ Text.digitLimit := by
  rw [Settings.render, Json.ofText_render (plain_document h), ← long?_document]
  cases Json.long? (document inventory) <;> simp

/-! ## 4. Writing a report -/

/-- What the log says before a report is written. -/
def announcement (settings : Settings) (now : DateTime) (inventory : Inventory) : Log.Record :=
  ⟨Log.info, Log.documentReportSource, "Exporting " ++ Text.ofNat inventory.index.size ++
    " resources to " ++ settings.path now⟩

/-- What the log says once a report was written. -/
def completion (path : Text) : Log.Record :=
  ⟨Log.info, Log.documentReportSource, "JSON export complete: " ++ path⟩

/-- The report on an inventory is written in a world if and only if its file can be opened. The file
then holds the text of the report and nothing else, but for what the log says at last if it is written
to the same file. -/
structure Written (settings : Settings) (now : DateTime) (inventory : Inventory) (world : World) :
    Prop where
  opens : ((write settings now inventory).runIn world).1 = .ok (settings.path now) ↔
    ((world.record (announcement settings now inventory)).files.openFile (settings.path now)
      true).toBool = true
  holds : ∀ path after, (write settings now inventory).runIn world = (.ok path, after) →
    path = settings.path now ∧ ∃ (place : Location) (octets : Bytes) (finished : World),
      finished.files.locate path = .ok place ∧ finished.files.read path = .ok octets ∧
      Text.decodeUtf8 .refuse octets = .ok (settings.render inventory) ∧
      after = finished.record (completion path) ∧
      (place ∉ world.log.places → after.files.read path = .ok octets)

theorem write_run (settings : Settings) (now : DateTime) (inventory : Inventory) (world : World) :
    (write settings now inventory).runIn world =
      let begun := world.record (announcement settings now inventory)
      match begun.files.openFile (settings.path now) true with
      | .error (.refused refusal) =>
        (.error (.error (writeError (settings.path now) refusal)), begun)
      | .error (.path fault) => (.error (.path fault), begun)
      | .ok (place, files) =>
        let octets := (settings.render inventory).flatMap Text.utf8Octets
        (.ok (settings.path now),
          { begun with files := files.overwriteStart place octets }.record
            (completion (settings.path now))) := by
  simp only [write, record, Action.runIn_bind, Action.runIn_record, Action.runIn_files]
  rw [← announcement]
  rcases hopen : (world.record (announcement settings now inventory)).files.openFile
    (settings.path now) true with (refusal | fault) | ⟨place, files⟩
  · rfl
  · rfl
  · rfl

/-- **Writing a report leaves its text in its file.** -/
theorem written (h : ∀ t ∈ inventory.texts, ∀ c ∈ t, c.isSurrogate = false) (settings : Settings)
    (now : DateTime) (world : World) : Written settings now inventory world := by
  have hrun := write_run settings now inventory world
  dsimp only at hrun
  rcases hopen : (world.record (announcement settings now inventory)).files.openFile
    (settings.path now) true with fault | ⟨place, made⟩
  · obtain ⟨failure, hfails⟩ : ∃ failure, (write settings now inventory).runIn world =
        (.error failure, world.record (announcement settings now inventory)) := by
      rw [hrun, hopen]
      cases fault <;> exact ⟨_, rfl⟩
    exact ⟨by simp [hfails, hopen, Except.toBool], by simp [hfails]⟩
  · rw [hopen] at hrun
    refine ⟨by simp [hrun, hopen, Except.toBool], fun path after hwrite => ?_⟩
    rw [hrun, Prod.mk.injEq] at hwrite
    obtain ⟨hpath, rfl⟩ := hwrite
    obtain rfl := Except.ok.inj hpath
    obtain ⟨hlocate, hread⟩ := FileTree.read_of_openFile hopen
      ((settings.render inventory).flatMap Text.utf8Octets)
    have hplain : Json.Plain 2 (document inventory) := plain_document h
    have hscalar : ∀ c ∈ settings.render inventory, c.isSurrogate = false :=
      (Json.ascii_render hplain _).isSurrogate_eq
    refine ⟨rfl, place, _, _, hlocate, hread, ?_, rfl, fun hapart => ?_⟩
    · exact Text.decodeUtf8_eq_ok.mpr (Text.encodeUtf8_eq_ok.mpr ⟨hscalar, rfl⟩)
    · rw [FileTree.read_of_rewritten (World.Alike.record _ _).files, hread]
      intro loc hloc
      obtain rfl := Except.ok.inj (hlocate.symm.trans hloc)
      exact hapart

end Report

/-! ## 5. Copies that were counted -/

namespace Cache

-- Every copy is loaded or passed over, and none is passed over twice.
theorem loadCopies_counts {arnless : List Text} {loading final : Loading}
    {entries : List (Text × Text)} {world after : World}
    (h : (loadCopies arnless loading entries).runIn world = (.ok final, after))
    (hnodup : (loading.skipped.keys ++ entries.map Prod.fst).Nodup) :
    final.filesLoaded.length + final.skipped.size =
      loading.filesLoaded.length + loading.skipped.size + entries.length := by
  induction entries generalizing loading world with
  | nil =>
    obtain ⟨hfinal, -⟩ := Prod.mk.inj h
    obtain rfl := Except.ok.inj hfinal
    rfl
  | cons entry rest ih =>
    obtain ⟨path, owner⟩ := entry
    obtain ⟨next, between, hfirst, hrest⟩ := Action.bind_ok.mp h
    obtain ⟨quiet, hcopy, -⟩ := loadCopy_run arnless loading path owner world
    rw [hcopy, Prod.mk.injEq] at hfirst
    rw [List.map_cons] at hnodup
    rcases take_ok hfirst.1 with ⟨descriptors, -, rfl⟩ | ⟨e, -, rfl⟩
    · rw [ih hrest (hnodup.sublist ((List.sublist_cons_self _ _).append_left _))]
      simp only [Loading.add, List.length_append, List.length_cons, List.length_nil]
      omega
    · obtain ⟨hskip, hkeys⟩ := skip_of_nodup hnodup e.message
      rw [ih hrest (by simpa [hkeys] using hnodup), OrderedMap.size, OrderedMap.size, hskip,
        List.length_append, List.length_singleton, List.length_cons]
      simp only [Loading.skip]
      omega

theorem load_counts {now : DateTime} {cache : Cache} {world after : World} {inventory : Inventory}
    (h : (load now cache).runIn world = (.ok inventory, after)) :
    inventory.filesLoaded.length + inventory.skippedCount = cache.filenames.size := by
  obtain ⟨loading, between, hcopies, hrest⟩ := Action.bind_ok.mp h
  have hinventory : inventory = loading.inventory now := by
    simp only [Action.runIn_bind, Action.runIn_record, Action.runIn_pure, Prod.mk.injEq,
      Except.ok.injEq] at hrest
    exact hrest.1.symm
  rw [hinventory]
  exact (loadCopies_counts hcopies cache.filenames.keys_nodup).trans (Nat.zero_add _)

end Cache

/-! ## 6. The report on a cache -/

namespace Report

/-- A report on some copies whose counts agree. The resources are as many as it lists, and as the
resources of all owners together; every owner that it lists has as many as it is listed for, and no
other owner stands in the summary; and each of the copies is loaded or listed as passed over. -/
def Balanced (copies : Nat) (report : Json) : Prop :=
  ∃ (resources skipped : List (Text × Text)) (owners : List (Text × Nat)) (loaded : Nat)
    (collisions : Int) (time : Text),
    report = .obj [
      ("metadata", .obj [("resource_count", .int resources.length), ("files_loaded", .int loaded),
        ("files_skipped", .int skipped.length), ("collisions", .int collisions),
        ("load_time", .str time)]),
      ("summary_by_state_file", .obj (owners.map fun (owner, count) => (owner, .int count))),
      ("skipped_files", Json.ofTexts skipped),
      ("resources", Json.ofTexts resources)] ∧
    (resources.map Prod.fst).Nodup ∧ (owners.map Prod.fst).Nodup ∧
    (owners.map Prod.snd).sum = resources.length ∧
    (∀ owner count, (owner, count) ∈ owners ↔ owner ∈ resources.map Prod.snd ∧
      count = (resources.map Prod.snd).count owner) ∧
    loaded + skipped.length = copies

theorem balanced {inventory : Inventory} {copies : Nat}
    (h : inventory.filesLoaded.length + inventory.skippedCount = copies) :
    Balanced copies (document inventory) :=
  ⟨inventory.index.entries.entries, inventory.skipped.entries, inventory.index.owners.entries,
    inventory.filesLoaded.length, inventory.collisions, inventory.loadTime.standard, rfl,
    inventory.index.entries.keys_nodup, inventory.index.owners.keys_nodup,
    inventory.index.sum_owners, inventory.index.mem_owners, h⟩

/-- **If the report on a cache that was loaded tells no text with a surrogate, its text is read as the
document that it was written from**, with the resources, the owners and the copies that were passed
over in their order, **writing it leaves that text in its file, and its counts agree**. Only a count
of more than `Text.digitLimit` digits is not read; so many resources or copies fit in no memory. -/
theorem report_intact {now : DateTime} {cache : Cache} {world after : World} {inventory : Inventory}
    (hload : (Cache.load now cache).runIn world = (.ok inventory, after))
    (hscalar : ∀ t ∈ inventory.texts, ∀ c ∈ t, c.isSurrogate = false) (settings : Settings) :
    (Json.ofText (settings.render inventory) = .ok (document inventory) ↔
      ∀ count ∈ inventory.counts, count < 10 ^ Text.digitLimit) ∧
    (∀ moment later, Written settings moment inventory later) ∧
    Balanced cache.filenames.size (document inventory) :=
  ⟨ofText_render hscalar settings, written hscalar settings, balanced (Cache.load_counts hload)⟩

/-- The copies `r` and `s` and the empty copy `no` give a report with three resources of two owners and
one copy that was passed over. An id with a quotation mark and an id beyond the first plane are read
back. -/
theorem report_intact_of_unusual_ids :
    let cache := Cache.sharingCopies ["r", "s", "no"]
    let world := Cache.worldWith ["a\\\"b", "\\ud83d\\ude00"]
    ∃ inventory after, (Cache.load world.now cache).runIn world = (.ok inventory, after) ∧
      (∀ t ∈ inventory.texts, ∀ c ∈ t, c.isSurrogate = false) ∧
      inventory.index.ids = (["a\"b", [0x1F600], "b"] : List Text) ∧
      inventory.skipped.keys = (["no"] : List Text) ∧
      (∀ settings : Settings,
        Json.ofText (settings.render inventory) = .ok (document inventory) ∧
        ∀ moment later, Written settings moment inventory later) ∧
      Balanced 3 (document inventory) := by
  intro cache world
  have hresult : ((Cache.load world.now cache).runIn world).1.toOption.map (fun inventory =>
      (inventory.index.ids, inventory.skipped.keys, inventory.counts,
        inventory.texts.all fun t => t.all fun c => !c.isSurrogate)) =
      some ((["a\"b", [0x1F600], "b"] : List Text), (["no"] : List Text), [3, 2, 1, 0], true) := by
    decide +kernel
  rcases hload : (Cache.load world.now cache).runIn world with ⟨failure | inventory, after⟩
  · simp [hload, Except.toOption] at hresult
  · simp only [hload, Except.toOption, Option.map_some, Option.some.injEq, Prod.mk.injEq] at hresult
    obtain ⟨hids, hskipped, hcounts, htexts⟩ := hresult
    have hscalar : ∀ t ∈ inventory.texts, ∀ c ∈ t, c.isSurrogate = false := by
      simpa [List.all_eq_true] using htexts
    have hsmall : ∀ count ∈ inventory.counts, count < 10 ^ Text.digitLimit := by
      rw [hcounts]
      have hten : ∀ count ∈ [3, 2, 1, 0], count < 10 := by decide
      exact fun count hcount => (hten count hcount).trans_le (Nat.le_self_pow (by decide) 10)
    refine ⟨inventory, after, rfl, hscalar, hids, hskipped, fun settings => ?_, ?_⟩
    · obtain ⟨hread, hwritten, -⟩ := report_intact hload hscalar settings
      exact ⟨hread.mpr hsmall, hwritten⟩
    · exact (report_intact hload hscalar ⟨none, none⟩).2.2

end Report
end StateOwnership
