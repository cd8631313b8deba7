import Mathlib.Data.List.Basic
import StateOwnership.Proofs.State.Grouping
import StateOwnership.Proofs.State.Numbers

/-!
# Documents of version 3 and of version 4

A document of version 3 nests resources in modules and tells their names and numbers in keys; one of
version 4 lists them in a row and tells the same in members. **A document of version 3 is decoded as
the document of version 4 that lists its resources module by module and key by key**, as long as no
two modules have the same address: version 4 joins those.
-/

namespace StateOwnership

/-! ## 1. Numbers in ASCII -/

theorem CodePoint.decimalValue?_of_isAsciiDigit {c : CodePoint} (h : c.isAsciiDigit = true) :
    c.decimalValue? = some (c.val - 0x30) := by
  simp only [isAsciiDigit, Bool.and_eq_true, decide_eq_true_eq] at h
  have hranges : decimalRanges = (0x30, 0x39) :: decimalRanges.tail := rfl
  rw [decimalValue?, hranges, List.find?_cons_of_pos]
  · exact congrArg some (Nat.mod_eq_of_lt (by omega))
  · simpa using h

namespace Text

theorem decimalPrefix_of_ascii {t : Text} (h : ∀ c ∈ t, c.isAsciiDigit = true) :
    decimalPrefix t = t.map fun c => c.val - 0x30 := by
  induction t with
  | nil => rfl
  | cons c rest ih =>
    rw [List.forall_mem_cons] at h
    simp only [decimalPrefix, CodePoint.decimalValue?_of_isAsciiDigit h.1, ih h.2, List.map_cons]

-- ASCII digits spell their decimal value, unless there are too many.
theorem readNumeral_of_ascii {t : Text} (hne : t ≠ []) (h : ∀ c ∈ t, c.isAsciiDigit = true)
    (hlength : t.length ≤ digitLimit) : readNumeral t = .ok (decimalValue t) := by
  have hcount : (decimalPrefix t).length = t.length := by
    rw [decimalPrefix_of_ascii h, List.length_map]
  simp only [readNumeral]
  rw [if_neg (by omega), if_pos ⟨hcount, hne⟩, decimalPrefix_of_ascii h, List.foldl_map]
  rfl

end Text

namespace State

/-! ## 2. Resources that are listed module by module -/

namespace Current

variable {module : Module} {modules : List Module} {behind : List (Text × Resource)}

-- Resources of one module in front of those of others become a module of their own.
theorem groupByModule_append (hsome : module.resources ≠ [])
    (hnew : module.address ∉ behind.map Prod.fst) :
    groupByModule (module.resources.map (Prod.mk module.address) ++ behind) =
      module :: groupByModule behind := by
  obtain ⟨address, resources⟩ := module
  have hown : (resources.map (Prod.mk address)).filter (·.1 = address) =
      resources.map (Prod.mk address) := by simp [List.filter_eq_self]
  have hnone : behind.filter (·.1 = address) = [] := by
    refine List.filter_eq_nil_iff.mpr fun placed hplaced => ?_
    simp only [decide_eq_true_eq]
    exact fun heq => hnew (heq ▸ List.mem_map_of_mem hplaced)
  have horder : ((resources.map (Prod.mk address) ++ behind).map Prod.fst).eraseDups =
      address :: (behind.map Prod.fst).eraseDups := by
    obtain ⟨first, rest, rfl⟩ := List.exists_cons_of_ne_nil hsome
    have hothers : (behind.map Prod.fst).filter (fun other => !other == address) =
        behind.map Prod.fst := by
      refine List.filter_eq_self.mpr fun other hother => ?_
      simpa using fun heq : other = address => hnew (heq ▸ hother)
    have hsame : ((rest.map (Prod.mk address)).map Prod.fst).filter (fun other => !other == address) =
        [] := by simp
    simp only [List.map_cons, List.cons_append, List.eraseDups_cons, List.map_append,
      List.filter_append, hsame, hothers, List.nil_append]
  rw [groupByModule_eq, groupByModule_eq, horder, List.map_cons, List.filter_append, hown, hnone,
    List.append_nil]
  congr 1
  · simp [Function.comp_def]
  · refine List.map_congr_left fun other hother => ?_
    have hne : address ≠ other := fun heq => hnew (heq ▸ List.mem_eraseDups.mp hother)
    simp [List.filter_append, hne]

-- Modules with different addresses are got back, but for those without resources.
theorem groupByModule_flatMap (hdistinct : (modules.map Module.address).Nodup) :
    groupByModule (modules.flatMap fun m => m.resources.map (Prod.mk m.address)) =
      modules.filter (·.resources ≠ []) := by
  induction modules with
  | nil => rfl
  | cons module rest ih =>
    rw [List.map_cons, List.nodup_cons] at hdistinct
    rw [List.flatMap_cons]
    by_cases hsome : module.resources = []
    · simp [hsome, ih hdistinct.2]
    · have hnew : module.address ∉
          (rest.flatMap fun m => m.resources.map (Prod.mk m.address)).map Prod.fst := by
        intro hmem
        obtain ⟨placed, hplaced, hsame⟩ := List.mem_map.mp hmem
        obtain ⟨other, hother, hresource⟩ := List.mem_flatMap.mp hplaced
        obtain ⟨resource, -, rfl⟩ := List.mem_map.mp hresource
        exact hdistinct.1 (hsame ▸ List.mem_map_of_mem hother)
      rw [groupByModule_append hsome hnew, ih hdistinct.2, List.filter_cons_of_pos (by simpa)]

-- A module without resources has no instances.
theorem candidates_filter (modules : List Module) :
    candidates (modules.filter (·.resources ≠ [])) = candidates modules := by
  induction modules with
  | nil => rfl
  | cons module rest ih =>
    by_cases hsome : module.resources = []
    · rw [List.filter_cons_of_neg (by simp [hsome]), ih]
      simp [candidates, hsome]
    · rw [List.filter_cons_of_pos (by simpa)]
      simp only [candidates, List.flatMap_cons] at ih ⊢
      rw [ih]

end Current

/-! ## 3. What a document of version 3 holds -/

namespace Legacy

def isObjectOrNull : Json → Bool
  | .null | .obj _ => true
  | _ => false

/-- A resource is as it should be: an object with a type that is a text and a primary generation that
is an object, both of them optional. -/
def StructuredResource (resource : Json) : Prop :=
  let members := membersIn resource
  isObject resource = true ∧ isTextOrNull (member "type" members) = true ∧
    isObjectOrNull (member "primary" members) = true

instance : DecidablePred StructuredResource := fun _ =>
  inferInstanceAs (Decidable (_ ∧ _))

/-- The resources of a module by key. -/
def entriesIn (module : Json) : List (Text × Json) :=
  membersIn (member "resources" (membersIn module))

/-- A module is as it should be: an object with a list as its path and an object of resources, both of
them optional. Any blank value stands for no resources. -/
def StructuredModule (module : Json) : Prop :=
  let members := membersIn module
  isObject module = true ∧ isListOrNull (member "path" members) = true ∧
    ((member "resources" members).isBlank = true ∨
      isObject (member "resources" members) = true) ∧
    ∀ entry ∈ entriesIn module, StructuredResource entry.2

instance : DecidablePred StructuredModule := fun _ =>
  inferInstanceAs (Decidable (_ ∧ _))

def modulesIn (members : List (Text × Json)) : List Json :=
  itemsIn (member "modules" members)

def Structured (members : List (Text × Json)) : Prop :=
  isListOrNull (member "modules" members) = true ∧
    ∀ module ∈ modulesIn members, StructuredModule module

instance : DecidablePred Structured := fun _ =>
  inferInstanceAs (Decidable (_ ∧ _))

def addressIn (module : Json) : Text :=
  moduleAddress (itemsIn (member "path" (membersIn module)))

/-- If the part of a key after the type and the name consists of digits, they are ASCII digits, and
not too many of them for a number. -/
def PlainNumber (key : Text) : Prop :=
  ∀ part ∈ numberPart? key, part.isNumeric = true →
    part.all (·.isAsciiDigit) = true ∧ part.length ≤ Text.digitLimit

instance : DecidablePred PlainNumber := fun key =>
  inferInstanceAs (Decidable (∀ part ∈ numberPart? key, _ → _ ∧ _))

/-- The parts of a resource key between dots, without the mark of what is only looked up. -/
def partsOf (key : Text) : List Text :=
  Text.splitOn 0x2E (if dataMark.isPrefixOf key then key.drop dataMark.length else key)

def keyIn (key : Text) : Key where
  mode := if dataMark.isPrefixOf key then dataMode else managedMode
  type := (partsOf key).headD []
  name := ((partsOf key).drop 1).headD []
  index :=
    match numberPart? key with
    | none => .null
    | some part => if part.isNumeric then .int (Text.decimalValue part) else .null

/-- The type of a resource under a key: its own one, if it is not empty, or else that in the key. -/
def typeIn (entry : Text × Json) : Text :=
  let type := textIn [] (member "type" (membersIn entry.2))
  if type = [] then (keyIn entry.1).type else type

def instanceIn (index : Json) : Json → Instance
  | .null => ⟨index, false, .null⟩
  | primary => ⟨index, true, attributesOf (membersIn primary)⟩

def resourceIn (entry : Text × Json) : Resource :=
  ⟨(keyIn entry.1).mode, typeIn entry, (keyIn entry.1).name,
    [instanceIn (keyIn entry.1).index (member "primary" (membersIn entry.2))]⟩

theorem readKey_of_plain {key : Text} (h : PlainNumber key) : readKey key = .ok (keyIn key) := by
  have hindex : readIndex (partsOf key) = .ok (keyIn key).index := by
    have hpart : numberPart? key = (partsOf key)[2]? := rfl
    rw [PlainNumber, hpart] at h
    simp only [keyIn, hpart]
    generalize partsOf key = parts at h ⊢
    rcases parts with _ | ⟨type, _ | ⟨name, _ | ⟨part, rest⟩⟩⟩
    · rfl
    · rfl
    · rfl
    · simp only [readIndex, List.getElem?_cons_succ, List.getElem?_cons_zero]
      by_cases hdigits : part.isNumeric = true
      · have hne : part ≠ [] := by
          rintro rfl
          simp [Text.isNumeric] at hdigits
        obtain ⟨hascii, hlength⟩ := h part rfl hdigits
        simp only [if_pos hdigits,
          Text.readNumeral_of_ascii hne (List.all_eq_true.mp hascii) hlength]
      · rw [if_neg hdigits, if_neg hdigits]
  have hread : readKey key = (readIndex (partsOf key)).map fun index =>
      { keyIn key with index := index } := by
    show (readIndex (partsOf key) >>= fun index => pure _) = _
    cases readIndex (partsOf key) <;> rfl
  rw [hread, hindex]
  rfl

theorem decides_readInstance (field : Text) (index primary : Json) :
    Decides none (isObjectOrNull primary = true) (instanceIn index primary)
      (readInstance field index primary) := by
  cases primary with
  | null => exact Decides.ok_iff.mpr ⟨rfl, rfl⟩
  | obj members => exact Decides.ok_iff.mpr ⟨rfl, rfl⟩
  | _ => exact Decides.error_iff.mpr ⟨Bool.false_ne_true, rfl⟩

theorem decides_readResource {entry : Text × Json} (h : PlainNumber entry.1) :
    Decides none (StructuredResource entry.2) (resourceIn entry) (readResource entry) := by
  have hkey : Decides none True (keyIn entry.1) (readKey entry.1) := by
    rw [readKey_of_plain h]
    exact Decides.ok_iff.mpr ⟨trivial, rfl⟩
  refine Decides.congr ((decides_membersOf _ _).bind fun _ => hkey.bind fun _ =>
    (decides_textOf _ _ _).bind fun _ => (decides_readInstance _ _ _).bind fun _ => .pure _) ?_ rfl
  simp [StructuredResource]

def moduleIn (module : Json) : Module :=
  ⟨addressIn module, (entriesIn module).map resourceIn⟩

theorem decides_entries (field : Text) (listed : Json) :
    Decides none (listed.isBlank = true ∨ isObject listed = true) (membersIn listed)
      (membersOf field (if listed.isBlank then .obj [] else listed)) := by
  by_cases hblank : listed.isBlank = true
  · have hnone : membersIn listed = [] := by
      cases listed with
      | obj members => exact List.isEmpty_iff.mp hblank
      | _ => rfl
    rw [if_pos hblank, hnone]
    exact Decides.ok_iff.mpr ⟨.inl hblank, rfl⟩
  · rw [if_neg hblank]
    exact (decides_membersOf field listed).congr (by simp [hblank]) rfl

theorem decides_readModule {module : Json}
    (h : ∀ entry ∈ entriesIn module, PlainNumber entry.1) :
    Decides none (StructuredModule module) (moduleIn module) (readModule module) := by
  refine Decides.congr ((decides_membersOf _ _).bind fun _ => (decides_listOf _ _).bind fun _ =>
    (decides_entries _ _).bind fun _ =>
    (Decides.mapM fun entry hentry => decides_readResource (h entry hentry)).bind fun _ =>
    .pure _) ?_ rfl
  simp [StructuredModule, entriesIn]

-- If its numbers are plain, a document can be read exactly if its structure is as it should be.
theorem decides_readModules {members : List (Text × Json)}
    (h : ∀ module ∈ modulesIn members, ∀ entry ∈ entriesIn module, PlainNumber entry.1) :
    Decides none (Structured members) ((modulesIn members).map moduleIn)
      (readModules members) := by
  refine Decides.congr ((decides_listOf _ _).bind fun _ =>
    Decides.mapM fun module hmodule => decides_readModule (h module hmodule)) ?_ rfl
  rfl

/-! ## 4. The same document in version 4 -/

/-- The attributes of a primary generation, an empty object if they are blank. If they are an object
without an identifier the generation's own one is added. -/
def completed (primary : List (Text × Json)) : Json :=
  let attributes := member "attributes" primary
  let own := ((member? idName primary).map (Prod.mk idName)).toList
  match if attributes.isBlank then .obj [] else attributes with
  | .obj members => .obj (if (member? idName members).isSome then members else members ++ own)
  | other => other

/-- The instances of version 4 for a primary generation: none without one. -/
def upgradedInstances (index primary : Json) : List Json :=
  match primary with
  | .null => []
  | primary =>
    let described : List (Text × Json) := [("attributes", completed (membersIn primary))]
    [.obj (if index = .null then described else ("index_key", index) :: described)]

/-- The resource of version 4 for one under a key of the module at an address. -/
def upgradedResource (address : Text) (entry : Text × Json) : Json :=
  .obj [("module", .str address), ("mode", .str (keyIn entry.1).mode),
    ("type", .str (typeIn entry)), ("name", .str (keyIn entry.1).name),
    ("instances", .arr (upgradedInstances (keyIn entry.1).index
      (member "primary" (membersIn entry.2))))]

/-- The resources of version 4 for a document, module by module and key by key. -/
def upgraded (members : List (Text × Json)) : List Json :=
  (modulesIn members).flatMap fun module =>
    (entriesIn module).map (upgradedResource (addressIn module))

theorem completed_eq (primary : List (Text × Json)) : completed primary = attributesOf primary := by
  simp only [completed, attributesOf]
  cases (if (member "attributes" primary).isBlank = true then Json.obj []
    else member "attributes" primary) with
  | obj members =>
    rcases hthere : member? idName members with _ | id <;>
      rcases hown : member? idName primary with _ | own <;> simp [hthere]
  | _ => rfl

-- The instance of version 4 is the one that the primary generation describes.
theorem filter_upgradedInstances (index primary : Json) :
    ((upgradedInstances index primary).map fun i => (⟨member "index_key" (membersIn i),
        (member? "deposed" (membersIn i)).isNone, Current.attributesOf (membersIn i)⟩ :
          Instance)).filter (·.isCurrent) =
      [instanceIn index primary].filter (·.isCurrent) := by
  cases primary with
  | null => rfl
  | _ =>
    by_cases hindex : index = .null
    · simp only [upgradedInstances, instanceIn, ← completed_eq, hindex]
      rfl
    · simp only [upgradedInstances, if_neg hindex, instanceIn, ← completed_eq]
      rfl

-- The current instances are those of the resource under the key.
theorem candidates_upgradedResource (address : Text) (entry : Text × Json) :
    (Current.resourceIn (upgradedResource address entry)).candidates address =
      (resourceIn entry).candidates address := by
  have hresource : Current.resourceIn (upgradedResource address entry) =
      ⟨(keyIn entry.1).mode, typeIn entry, (keyIn entry.1).name,
        (upgradedInstances (keyIn entry.1).index (member "primary" (membersIn entry.2))).map fun i =>
          ⟨member "index_key" (membersIn i), (member? "deposed" (membersIn i)).isNone,
            Current.attributesOf (membersIn i)⟩⟩ := rfl
  rw [hresource]
  simp only [Resource.candidates, filter_upgradedInstances, Resource.addressOf]
  rfl

theorem structured_upgradedResource (address : Text) (entry : Text × Json) :
    Current.StructuredResource (upgradedResource address entry) := by
  refine ⟨rfl, fun field hfield => ?_, rfl, fun i hi => ?_⟩
  · simp only [List.mem_cons, List.not_mem_nil, or_false] at hfield
    rcases hfield with rfl | rfl | rfl | rfl <;> rfl
  · replace hi : i ∈ upgradedInstances (keyIn entry.1).index
        (member "primary" (membersIn entry.2)) := hi
    unfold upgradedInstances at hi
    split at hi
    · simp at hi
    · rw [List.mem_singleton.mp hi]
      rfl

section Decoding

variable {legacy current : List (Text × Json)}

theorem structured_upgraded (hresources : member "resources" current = .arr (upgraded legacy)) :
    Current.Structured current := by
  rw [Current.Structured, hresources]
  refine ⟨rfl, fun resource hresource => ?_⟩
  obtain ⟨module, -, hmem⟩ := List.mem_flatMap.mp hresource
  obtain ⟨entry, -, rfl⟩ := List.mem_map.mp hmem
  exact structured_upgradedResource _ _

-- Modules with different addresses have the same instances in both versions.
theorem candidates_upgraded (hresources : member "resources" current = .arr (upgraded legacy))
    (hdistinct : ((modulesIn legacy).map addressIn).Nodup) :
    candidates (Current.groupByModule (Current.placedIn current)) =
      candidates ((modulesIn legacy).map moduleIn) := by
  let upgradedModule (module : Json) : Module := ⟨addressIn module, (entriesIn module).map fun entry =>
    Current.resourceIn (upgradedResource (addressIn module) entry)⟩
  have hplaced : Current.placedIn current = ((modulesIn legacy).map upgradedModule).flatMap
      fun m => m.resources.map (Prod.mk m.address) := by
    rw [Current.placedIn, hresources, List.flatMap_map]
    show (upgraded legacy).map _ = _
    rw [upgraded, List.map_flatMap]
    refine List.flatMap_congr fun module _ => ?_
    rw [List.map_map, List.map_map]
    rfl
  have hdistinct' : (((modulesIn legacy).map upgradedModule).map Module.address).Nodup := by
    rw [List.map_map]
    exact hdistinct
  rw [hplaced, Current.groupByModule_flatMap hdistinct', Current.candidates_filter, candidates,
    candidates, List.flatMap_map, List.flatMap_map]
  refine List.flatMap_congr fun module _ => ?_
  simp only [upgradedModule, moduleIn, List.flatMap_map, candidates_upgradedResource]

/-- **A document of version 3 is decoded as the document of version 4 that lists its resources**, if
its structure is as it should be, its numbers are plain and its modules have different addresses: both
give the same descriptors in the same order, or the same fault at the same address. -/
theorem decode_upgraded (arnless : List Text)
    (hlegacy : (member "version" legacy).isNat 3 = true) (hstructured : Structured legacy)
    (hplain : ∀ module ∈ modulesIn legacy, ∀ entry ∈ entriesIn module, PlainNumber entry.1)
    (hdistinct : ((modulesIn legacy).map addressIn).Nodup)
    (hcurrent : (member "version" current).isNat 4 = true)
    (hresources : member "resources" current = .arr (upgraded legacy)) :
    (∃ descriptors, decode arnless (.obj legacy) = .ok descriptors ∧
        decode arnless (.obj current) = .ok descriptors) ∨
      ∃ fault address, decode arnless (.obj legacy) = .error fault ∧
        decode arnless (.obj current) = .error fault ∧
        ∀ path, (fault.toError path).topic = .decode path (some address) := by
  have hversion : (member "version" legacy).isNat 4 ≠ true :=
    fun h => absurd (Json.isNat_unique hlegacy h) (by decide)
  have hread : decode arnless (.obj legacy) =
      extract (arnlessTypes ++ arnless) ((modulesIn legacy).map moduleIn) := by
    rw [decode, modulesOf, if_neg hversion, if_pos hlegacy,
      (decides_readModules hplain).ok hstructured]
    rfl
  have hsame : decode arnless (.obj current) = decode arnless (.obj legacy) := by
    rw [Current.decode_of_structured hcurrent (structured_upgraded hresources), hread, extract,
      extract, candidates_upgraded hresources hdistinct]
  rw [hsame]
  obtain ⟨hall, hfirst⟩ := extract_spec (arnlessTypes ++ arnless) ((modulesIn legacy).map moduleIn)
  by_cases hgood : ∀ c ∈ candidates ((modulesIn legacy).map moduleIn), Describing c.attributes
  · exact .inl ⟨_, hread.trans (hall hgood), hread.trans (hall hgood)⟩
  · obtain ⟨-, c, -, -, -, -, fault, hfail, haddress⟩ := hfirst hgood
    refine .inr ⟨fault, c.address, hread.trans hfail, hread.trans hfail, fun path => ?_⟩
    rw [Fault.toError_topic, haddress]

end Decoding

/-- A counted resource without an identifier of its own, one that is gone, one that is only looked up
and one with blank attributes, in two modules. -/
def countedDocument : List (Text × Json) :=
  [("version", .int 3), ("modules", .arr [
    .obj [("path", .arr [.str "root"]), ("resources", .obj [
      ("t.web.2", .obj [("primary", .obj [("id", .str "i"),
        ("attributes", .obj [("arn", .str "x")])])]),
      ("t.gone", .obj [("primary", .null)]),
      ("data.t.look", .obj [("primary", .obj [])])])],
    .obj [("path", .arr [.str "root", .str "m"]), ("resources", .obj [
      ("t.key.b", .obj [("type", .str "aws_iam_access_key"), ("primary", .obj [("id", .str "k"),
        ("attributes", .bool false)])])])]])]

/-- The same resources in version 4. -/
def listedDocument : List (Text × Json) :=
  [("version", .int 4), ("serial", .int 1), ("resources", .arr [
    .obj [("module", .str []), ("mode", .str "managed"), ("type", .str "t"), ("name", .str "web"),
      ("instances", .arr [.obj [("index_key", .int 2),
        ("attributes", .obj [("arn", .str "x"), ("id", .str "i")])]])],
    .obj [("module", .str []), ("mode", .str "managed"), ("type", .str "t"), ("name", .str "gone"),
      ("instances", .arr [])],
    .obj [("module", .str []), ("mode", .str "data"), ("type", .str "t"), ("name", .str "look"),
      ("instances", .arr [.obj [("attributes", .obj [])]])],
    .obj [("module", .str "module.m"), ("mode", .str "managed"), ("type", .str "aws_iam_access_key"),
      ("name", .str "key"), ("instances", .arr [.obj [("attributes",
        .obj [("id", .str "k")])]])]])]

/-- Both documents give the counted resource and the one that is kept without a resource name. -/
theorem decode_upgraded_of_counted :
    (member "version" countedDocument).isNat 3 = true ∧ Structured countedDocument ∧
      (∀ module ∈ modulesIn countedDocument, ∀ entry ∈ entriesIn module, PlainNumber entry.1) ∧
      ((modulesIn countedDocument).map addressIn).Nodup ∧
      (member "version" listedDocument).isNat 4 = true ∧
      member "resources" listedDocument = .arr (upgraded countedDocument) ∧
      ∃ descriptors, decode [] (.obj countedDocument) = .ok descriptors ∧
        decode [] (.obj listedDocument) = .ok descriptors ∧ descriptors =
          [⟨"i", "x", "t", "t.web[2]"⟩, ⟨"k", [], "aws_iam_access_key",
            "module.m.aws_iam_access_key.key"⟩] := by
  have hlegacy : (member "version" countedDocument).isNat 3 = true := by decide
  have hstructured : Structured countedDocument := by decide
  have hplain : ∀ module ∈ modulesIn countedDocument, ∀ entry ∈ entriesIn module,
      PlainNumber entry.1 := by decide
  have hdistinct : ((modulesIn countedDocument).map addressIn).Nodup := by decide
  have hcurrent : (member "version" listedDocument).isNat 4 = true := by decide
  have hresources : member "resources" listedDocument = .arr (upgraded countedDocument) := by decide
  have hvalue : decode [] (.obj countedDocument) = .ok [⟨"i", "x", "t", "t.web[2]"⟩,
      ⟨"k", [], "aws_iam_access_key", "module.m.aws_iam_access_key.key"⟩] := by decide
  refine ⟨hlegacy, hstructured, hplain, hdistinct, hcurrent, hresources, ?_⟩
  rcases decode_upgraded [] hlegacy hstructured hplain hdistinct hcurrent hresources with
    ⟨descriptors, hfirst, hsecond⟩ | ⟨fault, address, hfail, -⟩
  · rw [hvalue] at hfirst
    exact ⟨descriptors, by rw [hvalue, hfirst], hsecond, (Except.ok.inj hfirst).symm⟩
  · rw [hvalue] at hfail
    cases hfail

end Legacy
end State
end StateOwnership
