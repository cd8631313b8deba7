import StateOwnership.Proofs.Cache.Loading
import StateOwnership.Proofs.State.Numbers

/-!
# What is reported about a state file

A state file that cannot be opened or decoded is reported by an error that names its path, and loading
a cache passes it over. **What is not reported is a path that names no place, a number that cannot be
read and, for its path alone, the empty path**; the first two end the loading of a whole cache.
-/

namespace StateOwnership

namespace State

/-! ## 1. One file -/

/-- A state file is loaded, or reported by an error about its path whose details name the path. -/
def Reported (path : Text) : Except Failure (List Descriptor) → Prop
  | .ok _ => True
  | .error (.error e) =>
    (∃ address, e.topic = .decode (some path) address) ∧ e.details.get? "path" = some (.str path)
  | .error _ => False

/-- A state file is loaded, or reported by an error of any kind. -/
def Caught : Except Failure (List Descriptor) → Prop
  | .ok _ => True
  | .error (.error _) => True
  | .error _ => False

/-- A path names a place, and a file there fails at no number. -/
def Reportable (files : FileTree) (path : Text) : Prop :=
  Path.check path = .ok () ∧ ∀ octets ∈ (files.read path).toOption, ¬ UnreadableNumber octets

section Files

variable {files : FileTree} {path : Text} {octets : Bytes}

theorem reportable_of_read (h : files.read path = .ok octets) :
    Reportable files path ↔ ¬ UnreadableNumber octets := by
  simp [Reportable, h, FileTree.check_of_read h]

-- An error about a state file that cannot be opened names the path, unless that is empty.
theorem reported_unreadableError (refusal : FileTree.Refusal) :
    Reported path (.error (.error (unreadableError path refusal))) ↔ path ≠ [] := by
  cases path with
  | nil =>
    simp [Reported, unreadableError, Error.about, Error.noteTopic, Error.note,
      OrderedMap.get?_empty]
  | cons c rest =>
    simp [Reported, unreadableError, Error.about, Error.noteTopic, Error.note,
      OrderedMap.get?_insert]

-- An error about a document names the path of its file.
theorem reported_decodeFailure (path : Text) (fault : Fault) :
    Reported path (.error (decodeFailure path fault)) ↔ ∀ numeral, fault ≠ .index numeral := by
  cases fault <;>
    simp [decodeFailure, Reported, Fault.toError, Error.about, OrderedMap.get?_insert]

theorem caught_decodeFailure (path : Text) (fault : Fault) :
    Caught (.error (decodeFailure path fault)) ↔ ∀ numeral, fault ≠ .index numeral := by
  cases fault <;> simp [decodeFailure, Caught]

-- What is said of failing at a number holds of the file that is decoded.
theorem unreadableNumber_of_error {arnless : List Text} {fault : Fault}
    (h : decodeBytes arnless octets = .error fault) :
    ¬ UnreadableNumber octets ↔ ∀ numeral, fault ≠ .index numeral := by
  rw [← failsAtNumber_decodeBytes arnless, h, failsAtNumber_error, not_exists]

-- Loading a file fails in no way but by a report if its path and its numbers do not prevent it.
theorem caught_ofFile_iff (files : FileTree) (arnless : List Text) (path : Text) :
    Caught (ofFile files arnless path) ↔ Reportable files path := by
  cases hread : files.read path with
  | error fault =>
    rw [ofFile, hread]
    rcases FileTree.read_error hread with ⟨refusal, rfl, hcheck⟩ | ⟨cause, rfl, hcheck⟩
    · simp [fileFailure, Caught, Reportable, hcheck, hread, Except.toOption]
    · simp [fileFailure, Caught, Reportable, hcheck]
  | ok octets =>
    rw [ofFile_of_read hread, reportable_of_read hread]
    cases hdecode : decodeBytes arnless octets with
    | error fault =>
      rw [unreadableNumber_of_error hdecode]
      exact caught_decodeFailure path fault
    | ok descriptors =>
      refine iff_of_true trivial ?_
      rw [← failsAtNumber_decodeBytes arnless, hdecode]
      exact failsAtNumber_ok _

-- Every report names the path of its file, unless that is empty.
theorem reported_ofFile_iff_caught (files : FileTree) (arnless : List Text) (path : Text) :
    Reported path (ofFile files arnless path) ↔
      path ≠ [] ∧ Caught (ofFile files arnless path) := by
  cases hread : files.read path with
  | error fault =>
    rw [ofFile, hread]
    rcases FileTree.read_error hread with ⟨refusal, rfl, -⟩ | ⟨cause, rfl, -⟩
    · simp [fileFailure, reported_unreadableError, Caught]
    · simp [fileFailure, Reported, Caught]
  | ok octets =>
    have hpath : path ≠ [] := by
      rintro rfl
      rw [FileTree.read_nil] at hread
      simp [FileTree.refuse] at hread
    rw [ofFile_of_read hread]
    cases decodeBytes arnless octets with
    | error fault =>
      have hboth := (reported_decodeFailure path fault).trans (caught_decodeFailure path fault).symm
      exact hboth.trans (iff_and_self.mpr fun _ => hpath)
    | ok descriptors => exact iff_of_true trivial ⟨hpath, trivial⟩

end Files

end State

namespace Cache

/-! ## 2. All files of a cache -/

section Loads

variable {files : FileTree} {arnless : List Text} {loading : Loading}
  {entries : List (Text × Text)}

theorem toBool_take (loading : Loading) (path owner : Text)
    (result : Except Failure (List State.Descriptor)) :
    (loading.take path owner result).toBool = true ↔ State.Caught result := by
  rcases result with (_ | _ | _ | _ | _ | _) | descriptors <;>
    simp [Loading.take, State.Caught, Except.toBool]

-- Loading copies succeeds if every copy is loaded or reported.
theorem toBool_takeAll : (loading.takeAll files arnless entries).toBool = true ↔
    ∀ entry ∈ entries, State.Caught (State.ofFile files arnless entry.1) := by
  induction entries generalizing loading with
  | nil => simp [Loading.takeAll, Except.toBool]
  | cons entry rest ih =>
    obtain ⟨path, owner⟩ := entry
    rw [Loading.takeAll, List.forall_mem_cons, ← toBool_take loading path owner]
    cases loading.take path owner (State.ofFile files arnless path) with
    | error failure => simp [Except.toBool]
    | ok next => exact ih.trans (and_iff_right rfl).symm

-- Loading a cache succeeds exactly if nothing about any of its paths escapes the reports.
theorem load_ok_iff {now : DateTime} {cache : Cache} {world : World}
    (hapart : LogApart world cache.filenames.entries) :
    ((load now cache).runIn world).1.toBool = true ↔
      ∀ entry ∈ cache.filenames.entries, State.Reportable world.files entry.1 := by
  obtain ⟨after, hload, -⟩ := load_run now hapart
  rw [hload, toBool_map, toBool_takeAll]
  exact forall₂_congr fun entry _ => State.caught_ofFile_iff _ _ entry.1

end Loads

/-- **A state file is loaded, or reported by an error whose path and details are its path, if and only
if the path is not empty, names a place and leads to no document that fails at a number.** Loading a
cache succeeds if and only if this holds of its paths, up to the empty one. -/
theorem reported_iff (arnless : List Text) (world : World) :
    (∀ path, State.Reported path ((State.loadFile arnless path).runIn world).1 ↔
        path ≠ [] ∧ State.Reportable world.files path) ∧
      ∀ cache now, LogApart world cache.filenames.entries →
        (((load now cache).runIn world).1.toBool = true ↔
          ∀ entry ∈ cache.filenames.entries, State.Reportable world.files entry.1) := by
  refine ⟨fun path => ?_, fun cache now hapart => load_ok_iff hapart⟩
  obtain ⟨after, hload, -⟩ := State.loadFile_run arnless path world
  rw [hload, State.reported_ofFile_iff_caught, State.caught_ofFile_iff]

/-- A world with a file `s` and a cache of it alone. -/
def worldOf (content : Bytes) : World :=
  { sampleWorld with files := sampleWorld.files.set ["w", "s"] (.file content) }

def cacheOf (owner : Text) : Cache :=
  { Cache.make ⟨"d", none, []⟩ true 1 with filenames := OrderedMap.ofList [("s", owner)] }

/-- A file that is no document is reported, and passed over when its cache is loaded. -/
theorem reported_of_no_document :
    State.Reported "s" ((State.loadFile [] "s").runIn (worldOf [])).1 ∧
      ((load sampleWorld.now (cacheOf "o")).runIn (worldOf [])).1.toBool = true := by
  obtain ⟨hfile, hcache⟩ := reported_iff [] (worldOf [])
  have hread : (worldOf []).files.read "s" = .ok [] := by decide +kernel
  have hreportable : State.Reportable (worldOf []).files "s" :=
    (State.reportable_of_read hread).mpr (by decide +kernel)
  have hapart : LogApart (worldOf []) (cacheOf "o").filenames.entries :=
    fun _ _ _ _ hmem => absurd hmem List.not_mem_nil
  refine ⟨(hfile "s").mpr ⟨by decide, hreportable⟩, (hcache _ _ hapart).mpr ?_⟩
  intro entry hentry
  rw [List.mem_singleton.mp hentry]
  exact hreportable

/-- A document of version 3 with one resource, whose number is a superscript two. -/
def superscriptDocument : Bytes :=
  ("\x7b\"version\":3,\"modules\":[\x7b\"resources\":\x7b\"t.n.\\u00b2\":\x7b\x7d\x7d\x7d]\x7d" :
    Text).map fun c => UInt8.ofNat c.val

/-- **Of a superscript in the key of a resource, a null byte in a path and an empty path none is
reported by an error that names the path**, and the superscript ends the loading of its cache. -/
theorem unreported_superscript :
    let world := worldOf superscriptDocument
    ¬ State.Reported "s" ((State.loadFile [] "s").runIn world).1 ∧
      ((load sampleWorld.now (cacheOf "o")).runIn world).1.toBool = false ∧
      ¬ State.Reported [0] ((State.loadFile [] [0]).runIn world).1 ∧
      ¬ State.Reported [] ((State.loadFile [] []).runIn world).1 := by
  intro world
  have hdigits : ((State.loadFile [] "s").runIn world).1 =
      .error (.numeral (.notDecimal [0xB2])) := by decide +kernel
  have hnull : ((State.loadFile [] [0]).runIn world).1 = .error (.path .nullByte) := by
    decide +kernel
  have hempty : ((State.loadFile [] []).runIn world).1 =
      .error (.error (State.unreadableError [] ⟨.noEntry, []⟩)) := by decide +kernel
  refine ⟨?_, by decide +kernel, ?_, ?_⟩
  · rw [hdigits]
    exact id
  · rw [hnull]
    exact id
  · rw [hempty, State.reported_unreadableError]
    exact fun hne => hne rfl

end Cache
end StateOwnership
