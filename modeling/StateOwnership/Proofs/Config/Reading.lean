import StateOwnership.Config.File
import StateOwnership.Proofs.FileTree.Parents
import StateOwnership.Proofs.Json.Limits
import StateOwnership.Proofs.World.Running

/-!
# What becomes of a configuration file

A configuration file is read as a whole or not at all. **It gives a configuration or an error about the
configuration if and only if its path can name a place, and what is there is a text in UTF-8 that is
within the limits of the reader of documents.** What the document holds does not matter: every wrong
type and every malformed place is reported.
-/

namespace StateOwnership.Config

/-- Reading a file gives a configuration, or an error about the configuration. -/
def Answered : Except Failure Config → Prop
  | .ok _ => True
  | .error (.error e) => ∃ field, e.topic = .configuration field
  | .error _ => False

/-- Octets are those of a text that is within the limits of the reader of documents. -/
def Bounded (octets : Bytes) : Prop :=
  ∃ t, Text.encodeUtf8 t = .ok octets ∧ ¬ Json.Overruns (Text.unifyLineEnds t)

section Documents

variable {octets : Bytes} {t : Text}

theorem ofLimit_of_inText {stop : Json.Stop} (t : Text) :
    (∃ what place, stop.inText t = .malformed what place) ↔ stop.ofLimit = false := by
  cases stop <;> simp [Json.Stop.inText, Json.Stop.ofLimit]

-- No step leads on from a byte order mark.
theorem not_overruns_of_mark (rest : Text) : ¬ Json.Overruns (0xFEFF :: rest) := by
  have hblanks : Json.skipBlanks (0xFEFF :: rest) = 0xFEFF :: rest := Json.skipBlanks_cons rfl rest
  have hend : (Json.Place.before [] (0xFEFF :: rest)).next = none := rfl
  have hmark : ¬ (Json.Place.before [] (0xFEFF :: rest)).Beyond :=
    Json.not_beyond_of_lt (by decide) (by decide) (by decide)
  rintro ⟨p, hp, hbeyond⟩
  rw [hblanks] at hp
  exact Json.Place.Passes.not_beyond .refl hend hmark hp hbeyond

-- A document is malformed, if it is not read, exactly if it is within the limits.
theorem ofText_malformed_iff (t : Text) :
    (∀ fault, Json.ofText t = .error fault → ∃ what place, fault = .malformed what place) ↔
      ¬ Json.Overruns t := by
  by_cases hmark : t.head? = some 0xFEFF
  · obtain ⟨rest, rfl⟩ := List.head?_eq_some_iff.mp hmark
    refine iff_of_true ?_ (not_overruns_of_mark rest)
    rw [Json.ofText, if_pos hmark]
    intro fault hfault
    exact ⟨_, _, (Except.error.inj hfault).symm⟩
  · rw [Json.ofText, if_neg hmark, Json.ofMarklessText, ← Json.document_ofLimit_iff]
    cases Json.document t with
    | ok read => simp [Except.mapError]
    | error stop => simp [Except.mapError, ofLimit_of_inText]

theorem bounded_of_encode (h : Text.encodeUtf8 t = .ok octets) :
    Bounded octets ↔ ¬ Json.Overruns (Text.unifyLineEnds t) := by
  refine ⟨?_, fun hlimits => ⟨t, h, hlimits⟩⟩
  rintro ⟨u, hu, hlimits⟩
  have hsame := (Text.decodeUtf8_eq_ok.mpr h).symm.trans (Text.decodeUtf8_eq_ok.mpr hu)
  obtain rfl := Except.ok.inj hsame
  exact hlimits

theorem documentOf_malformed_iff (octets : Bytes) :
    (∀ fault, documentOf octets = .error fault → ∃ what place, fault = .malformed what place) ↔
      Bounded octets := by
  rw [documentOf, decodeFile]
  cases hdecode : Text.decodeUtf8 .refuse octets with
  | error fault =>
    refine iff_of_false ?_ ?_
    · intro hmalformed
      obtain ⟨what, place, heq⟩ := hmalformed _ rfl
      simp at heq
    · rintro ⟨t, ht, -⟩
      rw [Text.decodeUtf8_eq_ok.mpr ht] at hdecode
      simp at hdecode
  | ok t =>
    rw [bounded_of_encode (Text.decodeUtf8_eq_ok.mp hdecode)]
    exact ofText_malformed_iff (Text.unifyLineEnds t)

theorem unifyLineEnds_replicate {c : CodePoint} (h : c ≠ 0x0D) (n : Nat) :
    Text.unifyLineEnds (List.replicate n c) = List.replicate n c := by
  induction n with
  | zero => rfl
  | succ n ih => simp [List.replicate_succ, Text.unifyLineEnds, h, ih]

theorem bounded_replicate {c : CodePoint} {b : UInt8} (hoctets : Text.utf8Octets c = [b])
    (hsurrogate : c.isSurrogate = false) (hreturn : c ≠ 0x0D) (n : Nat) :
    Bounded (List.replicate n b) ↔ ¬ Json.Overruns (List.replicate n c) := by
  have hencode : Text.encodeUtf8 (List.replicate n c) = .ok (List.replicate n b) := by
    rw [Text.encodeUtf8_eq_ok]
    refine ⟨fun d hd => (List.eq_of_mem_replicate hd) ▸ hsurrogate, ?_⟩
    rw [List.flatMap_replicate, hoctets, List.flatten_replicate_singleton]
  rw [bounded_of_encode hencode, unifyLineEnds_replicate hreturn]

-- Brackets alone nest as deep as there are many.
theorem not_bounded_of_brackets {n : Nat} (h : Json.depthLimit < n) :
    ¬ Bounded (List.replicate n 0x5B) := by
  obtain ⟨m, rfl⟩ : ∃ m, n = m + 1 := ⟨n - 1, by omega⟩
  rw [bounded_replicate (b := 0x5B) (c := 0x5B) rfl rfl (by decide), not_not, List.replicate_succ']
  exact Json.overruns_of_brackets (by omega) []

theorem not_bounded_of_digits {n : Nat} (h : Text.digitLimit < n) :
    ¬ Bounded (List.replicate n 0x31) := by
  rw [bounded_replicate (b := 0x31) (c := 0x31) rfl rfl (by decide), not_not]
  refine Json.overruns_of_startsLong ⟨[], List.replicate n 0x31, [], by simp, .inl rfl, ?_, ?_, ?_,
    by simp, rfl, rfl⟩
  · exact fun c hc => (List.eq_of_mem_replicate hc) ▸ rfl
  · cases n <;> simp [List.replicate_succ]
  · simpa using h

end Documents

section Files

variable {octets : Bytes} {path : Text} {files : FileTree}

theorem answered_documentFailure (path : Text) (fault : Json.Fault) :
    Answered (.error (documentFailure path fault)) ↔ ∃ what place, fault = .malformed what place := by
  cases fault <;> simp [documentFailure, Answered, Fault.toError, Error.about]

theorem answered_ofFile_of_read (h : files.read path = .ok octets) :
    Answered (ofFile files path) ↔ Bounded octets := by
  rw [← documentOf_malformed_iff, ofFile, h]
  dsimp only
  cases documentOf octets with
  | error fault => simp [answered_documentFailure]
  | ok document =>
    refine iff_of_true ?_ (by simp)
    dsimp only
    cases ofJson document with
    | error fault => exact ⟨_, rfl⟩
    | ok config => exact trivial

theorem answered_ofFile_iff (files : FileTree) (path : Text) :
    Answered (ofFile files path) ↔
      Path.check path = .ok () ∧ ∀ octets, files.read path = .ok octets → Bounded octets := by
  cases hread : files.read path with
  | error fault =>
    rw [ofFile, hread]
    rcases FileTree.read_error hread with ⟨refusal, rfl, hcheck⟩ | ⟨cause, rfl, hcheck⟩
    · exact iff_of_true ⟨_, rfl⟩ ⟨hcheck, by simp⟩
    · exact iff_of_false id fun h => hcheck h.1
  | ok octets => simp [answered_ofFile_of_read hread, FileTree.check_of_read hread]

theorem load_result (path : Text) (world : World) :
    ((load path).runIn world).1 = ofFile world.files path := by
  rw [load, Action.runIn_bind, Action.runIn_files]
  dsimp only
  cases ofFile world.files path <;> rfl

/-- **Loading a configuration file gives a configuration or an error about the configuration if and only
if** every code point of the path can occur in a path, and what is read there is a text in UTF-8 that is
within the limits of the reader of documents. -/
theorem answered_iff (path : Text) (world : World) :
    Answered ((load path).runIn world).1 ↔
      (∀ c ∈ path, Path.nameable c = true) ∧
        ∀ octets, world.files.read path = .ok octets → Bounded octets := by
  rw [load_result, answered_ofFile_iff, Path.check_eq_ok]

end Files

def worldOf (octets : Bytes) : World :=
  { sampleWorld with files := sampleWorld.files.set ["w", "f"] (.file octets) }

/-- **Of an octet that is not UTF-8, brackets that nest too deep, an integer with too many digits and a
null byte in the path none is reported by an error about the configuration**: each leaves as it is. -/
theorem unanswered_octet :
    ((load "f").runIn (worldOf [0xFF])).1 =
        .error (.document (.encoding ⟨.utf8, 0xFF, 0, 1, .invalidStart⟩)) ∧
      ¬ Answered ((load "f").runIn (worldOf [0xFF])).1 ∧
      ¬ Answered ((load "f").runIn (worldOf (List.replicate (Json.depthLimit + 1) 0x5B))).1 ∧
      ¬ Answered ((load "f").runIn (worldOf (List.replicate (Text.digitLimit + 1) 0x31))).1 ∧
      ¬ Answered ((load [0]).runIn (worldOf [])).1 := by
  have hread (octets : Bytes) : (worldOf octets).files.read "f" = .ok octets := rfl
  have hoctet : ((load "f").runIn (worldOf [0xFF])).1 =
      .error (.document (.encoding ⟨.utf8, 0xFF, 0, 1, .invalidStart⟩)) := by decide +kernel
  have hnull : ((load [0]).runIn (worldOf [])).1 = .error (.path .nullByte) := by decide +kernel
  refine ⟨hoctet, ?_, ?_, ?_, ?_⟩
  · rw [hoctet]
    exact id
  · rw [load_result, answered_ofFile_of_read (hread _)]
    exact not_bounded_of_brackets (Nat.lt_succ_self _)
  · rw [load_result, answered_ofFile_of_read (hread _)]
    exact not_bounded_of_digits (Nat.lt_succ_self _)
  · rw [hnull]
    exact id

end StateOwnership.Config
