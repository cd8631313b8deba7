import StateOwnership.Proofs.OrderedMap
import StateOwnership.Proofs.State.Reading

/-!
# Documents of version 4

The resources of a document are grouped by module before their instances are described. **A document
is decoded if and only if its structure is as it should be and every current managed instance can be
described**; then all of them are described, each in the group of its module. Otherwise the decoding
fails at the structure or, if that is as it should be, at the first instance in the groups that cannot
be described.
-/

namespace StateOwnership.State.Current

/-! ## 1. Structure -/

/-- A resource is as it should be: an object of texts and a list of objects, all of them optional. -/
def StructuredResource (value : Json) : Prop :=
  let members := membersIn value
  isObject value = true ∧
    (∀ field ∈ (["module", "mode", "type", "name"] : List Text),
      isTextOrNull (member field members) = true) ∧
    isListOrNull (member "instances" members) = true ∧
    ∀ i ∈ itemsIn (member "instances" members), isObject i = true

instance : DecidablePred StructuredResource := fun _ =>
  inferInstanceAs (Decidable (_ ∧ _))

/-- The resources of a document are as they should be. -/
def Structured (members : List (Text × Json)) : Prop :=
  isListOrNull (member "resources" members) = true ∧
    ∀ resource ∈ itemsIn (member "resources" members), StructuredResource resource

instance : DecidablePred Structured := fun _ =>
  inferInstanceAs (Decidable (_ ∧ _))

/-- The address of the module that a resource names. -/
def moduleIn (resource : Json) : Text :=
  textIn [] (member "module" (membersIn resource))

def resourceIn (resource : Json) : Resource :=
  let members := membersIn resource
  ⟨textIn managedMode (member "mode" members), textIn [] (member "type" members),
    textIn [] (member "name" members), (itemsIn (member "instances" members)).map fun i =>
      ⟨member "index_key" (membersIn i), (member? "deposed" (membersIn i)).isNone,
        attributesOf (membersIn i)⟩⟩

theorem decides_readInstance (value : Json) : Decides none (isObject value = true)
    ⟨member "index_key" (membersIn value), (member? "deposed" (membersIn value)).isNone,
      attributesOf (membersIn value)⟩ (readInstance value) := by
  refine Decides.congr ((decides_membersOf _ value).bind fun _ => .pure _) ?_ rfl
  exact and_iff_left trivial

theorem decides_readResource (value : Json) : Decides none (StructuredResource value)
    (moduleIn value, resourceIn value) (readResource value) := by
  refine Decides.congr ((decides_membersOf _ value).bind fun _ =>
    (decides_textOf _ _ _).bind fun _ => (decides_textOf _ _ _).bind fun _ =>
    (decides_textOf _ _ _).bind fun _ => (decides_textOf _ _ _).bind fun _ =>
    (decides_listOf _ _).bind fun _ => (Decides.mapM fun i _ => decides_readInstance i).bind fun _ =>
    .pure _) ?_ rfl
  simp [StructuredResource, and_assoc]

/-- The resources of a document with their modules, in document order. -/
def placedIn (members : List (Text × Json)) : List (Text × Resource) :=
  (itemsIn (member "resources" members)).map fun resource =>
    (moduleIn resource, resourceIn resource)

theorem decides_readModules (members : List (Text × Json)) :
    Decides none (Structured members) (groupByModule (placedIn members)) (readModules members) := by
  refine Decides.congr ((decides_listOf _ _).bind fun _ =>
    (Decides.mapM fun r _ => decides_readResource r).bind fun _ => .pure _) ?_ rfl
  simp [Structured]

/-! ## 2. Groups -/

section Lists

variable {α : Type} {property : α → Text} {order : List Text} {items : List α}

-- The items of other groups are found among those that are not in a given group.
theorem flatMap_filter_others {a : Text} (ha : a ∉ order) (items : List α) :
    (order.flatMap fun b => items.filter (property · = b)) =
      order.flatMap fun b => (items.filter (property · ≠ a)).filter (property · = b) := by
  rw [List.flatMap_def, List.flatMap_def]
  congr 1
  refine List.map_congr_left fun b hb => ?_
  have hne : b ≠ a := fun heq => ha (heq ▸ hb)
  rw [List.filter_filter]
  refine List.filter_congr fun item _ => ?_
  by_cases hitem : property item = b <;> simp [hitem, hne]

-- Grouping items neither loses nor repeats any.
theorem flatMap_filter_perm (hnodup : order.Nodup) (h : ∀ item ∈ items, property item ∈ order) :
    (order.flatMap fun b => items.filter (property · = b)).Perm items := by
  induction order generalizing items with
  | nil =>
    have hnone : items = [] := List.eq_nil_iff_forall_not_mem.mpr fun item hitem => by
      simpa using h item hitem
    simp [hnone]
  | cons first rest ih =>
    rw [List.nodup_cons] at hnodup
    have hrest : ∀ item ∈ items.filter (property · ≠ first), property item ∈ rest := by
      intro item hitem
      obtain ⟨hmem, hne⟩ := List.mem_filter.mp hitem
      exact (List.mem_cons.mp (h item hmem)).resolve_left (by simpa using hne)
    rw [List.flatMap_cons, flatMap_filter_others hnodup.1]
    have hperm := List.filter_append_perm (fun item => decide (property item = first)) items
    simp only [← decide_not] at hperm
    exact ((ih hnodup.2 hrest).append_left _).trans hperm

-- The items of one group stand in it in their order.
theorem filter_flatMap_filter (hnodup : order.Nodup) {a : Text} (ha : a ∈ order) :
    (order.flatMap fun b => items.filter (property · = b)).filter (property · = a) =
      items.filter (property · = a) := by
  have hfilter (b : Text) : (items.filter (property · = b)).filter (property · = a) =
      if b = a then items.filter (property · = a) else [] := by
    rw [List.filter_filter]
    split
    · rename_i heq
      simp [heq]
    · rename_i hne
      refine List.filter_eq_nil_iff.mpr fun item _ => ?_
      simp only [Bool.and_eq_true, decide_eq_true_eq, not_and]
      exact fun hitem hother => hne (hother ▸ hitem)
  have hnone (others : List Text) (h : a ∉ others) :
      (others.flatMap fun b => items.filter (property · = b)).filter (property · = a) = [] := by
    refine List.filter_eq_nil_iff.mpr fun item hitem => ?_
    obtain ⟨b, hb, hmem⟩ := List.mem_flatMap.mp hitem
    simp only [List.mem_filter, decide_eq_true_eq] at hmem ⊢
    exact fun heq => h (heq ▸ hmem.2 ▸ hb)
  obtain ⟨before, behind, rfl⟩ := List.append_of_mem ha
  rw [List.nodup_append, List.nodup_cons] at hnodup
  obtain ⟨-, ⟨hbehind, -⟩, hapart⟩ := hnodup
  have hbefore : a ∉ before := fun hmem => hapart a hmem a (by simp) rfl
  rw [List.flatMap_append, List.flatMap_cons, List.filter_append, List.filter_append,
    hnone before hbefore, hnone behind hbehind, hfilter, if_pos rfl, List.nil_append,
    List.append_nil]

end Lists

-- The modules are those that resources name, in the order in which they are first named.
theorem keys_foldl_addResource (placed : List (Text × Resource)) :
    (placed.foldl addResource ∅).keys = (placed.map Prod.fst).eraseDups := by
  induction placed using List.reverseRecOn with
  | nil => rfl
  | append_singleton init last ih =>
    rw [List.foldl_append, List.foldl_cons, List.foldl_nil, addResource, OrderedMap.keys_insert, ih,
      List.map_append, List.map_singleton, OrderedMap.eraseDups_concat]
    simp only [List.mem_eraseDups]

-- A module gets the resources that name it, in their order.
theorem getD_foldl_addResource (placed : List (Text × Resource)) (address : Text) :
    ((placed.foldl addResource ∅).get? address).getD [] =
      (placed.filter (·.1 = address)).map Prod.snd := by
  induction placed using List.reverseRecOn with
  | nil => rfl
  | append_singleton init last ih =>
    rw [List.foldl_append, List.foldl_cons, List.foldl_nil, addResource, OrderedMap.get?_insert]
    by_cases hlast : last.1 = address
    · subst hlast
      simp [ih]
    · simp [hlast, ih]

theorem groupByModule_eq (placed : List (Text × Resource)) :
    groupByModule placed = (placed.map Prod.fst).eraseDups.map fun address =>
      ⟨address, (placed.filter (·.1 = address)).map Prod.snd⟩ := by
  rw [groupByModule, OrderedMap.entries_eq_map_keys _ [], keys_foldl_addResource, List.map_map]
  apply List.map_congr_left
  intro address _
  rw [← getD_foldl_addResource]
  rfl

section Instances

variable (members : List (Text × Json))

/-- The current managed instances of a resource with the address of its module. -/
def managedIn (resource : Json) : List (Text × Candidate) :=
  let members := membersIn resource
  let type := textIn [] (member "type" members)
  let name := textIn [] (member "name" members)
  let current := (itemsIn (member "instances" members)).filter fun i =>
    (member? "deposed" (membersIn i)).isNone
  if textIn managedMode (member "mode" members) = managedMode then
    current.map fun i => (moduleIn resource, ⟨type, resourceAddress (moduleIn resource) managedMode
      type name (member "index_key" (membersIn i)), attributesOf (membersIn i)⟩)
  else []

/-- The current managed instances of a document with their modules, in document order. -/
def instancesIn : List (Text × Candidate) :=
  (itemsIn (member "resources" members)).flatMap managedIn

/-- The modules of a document in the order in which resources first name them. -/
def moduleOrder : List Text :=
  ((itemsIn (member "resources" members)).map moduleIn).eraseDups

/-- The current managed instances of a document, module by module. -/
def groupedIn : List (Text × Candidate) :=
  (moduleOrder members).flatMap fun address => (instancesIn members).filter (·.1 = address)

theorem managedIn_eq (resource : Json) : managedIn resource =
    ((resourceIn resource).candidates (moduleIn resource)).map (Prod.mk (moduleIn resource)) := by
  by_cases hmode : textIn managedMode (member "mode" (membersIn resource)) = managedMode
  · simp [managedIn, Resource.candidates, resourceIn, Resource.addressOf, hmode, List.filter_map,
      Function.comp_def]
  · simp [managedIn, Resource.candidates, resourceIn, hmode]

theorem moduleOrder_eq : moduleOrder members = ((placedIn members).map Prod.fst).eraseDups := by
  rw [placedIn, List.map_map]
  rfl

theorem nodup_moduleOrder : (moduleOrder members).Nodup := by
  rw [moduleOrder_eq, ← keys_foldl_addResource]
  exact ((placedIn members).foldl addResource ∅).keys_nodup

theorem mem_moduleOrder {members : List (Text × Json)} {i : Text × Candidate}
    (h : i ∈ instancesIn members) : i.1 ∈ moduleOrder members := by
  obtain ⟨resource, hresource, hi⟩ := List.mem_flatMap.mp h
  rw [managedIn_eq] at hi
  obtain ⟨c, -, rfl⟩ := List.mem_map.mp hi
  exact List.mem_eraseDups.mpr (List.mem_map_of_mem hresource)

theorem candidates_groupByModule :
    candidates (groupByModule (placedIn members)) = (groupedIn members).map Prod.snd := by
  -- The instances of one module are those of the resources that name it.
  have hmodule (resources : List Json) (address : Text) :
      (((resources.map fun r => (moduleIn r, resourceIn r)).filter (·.1 = address)).map
          Prod.snd).flatMap (·.candidates address) =
        ((resources.flatMap managedIn).filter (·.1 = address)).map Prod.snd := by
    induction resources with
    | nil => rfl
    | cons first rest ih =>
      rw [List.flatMap_cons, List.filter_append, List.map_append, ← ih, managedIn_eq]
      by_cases hfirst : moduleIn first = address
      · have hall : ((resourceIn first).candidates address).filter (fun _ => true) =
            (resourceIn first).candidates address := List.filter_eq_self.mpr fun _ _ => rfl
        simp [hfirst, List.filter_map, Function.comp_def, hall]
      · simp [hfirst, List.filter_map, Function.comp_def]
  rw [candidates, groupByModule_eq, List.flatMap_map, groupedIn, List.map_flatMap]
  rw [← moduleOrder_eq]
  simp only [placedIn, hmodule]
  rfl

theorem groupedIn_perm : (groupedIn members).Perm (instancesIn members) :=
  flatMap_filter_perm (nodup_moduleOrder members) fun _ => mem_moduleOrder

theorem filter_groupedIn (address : Text) : (groupedIn members).filter (·.1 = address) =
    (instancesIn members).filter (·.1 = address) := by
  by_cases haddress : address ∈ moduleOrder members
  · exact filter_flatMap_filter (nodup_moduleOrder members) haddress
  · have hnone (l : List (Text × Candidate)) (hl : ∀ i ∈ l, i ∈ instancesIn members) :
        l.filter (·.1 = address) = [] := by
      refine List.filter_eq_nil_iff.mpr fun i hi => ?_
      simp only [decide_eq_true_eq]
      exact fun heq => haddress (heq ▸ mem_moduleOrder (hl i hi))
    rw [hnone _ fun i hi => (groupedIn_perm members).mem_iff.mp hi, hnone _ fun _ hi => hi]

end Instances

/-! ## 3. The whole of decoding -/

-- The instances of a document are all described, or the first in the groups fails that cannot be.
theorem extract_groupByModule (allowed : List Text) (members : List (Text × Json)) :
    ((∀ i ∈ groupedIn members, Describing i.2.attributes) →
      extract allowed (groupByModule (placedIn members)) =
        .ok ((groupedIn members).filterMap fun i => i.2.descriptor? allowed)) ∧
    ((¬ ∀ i ∈ groupedIn members, Describing i.2.attributes) →
      ∃ before i behind, groupedIn members = before ++ i :: behind ∧
        (∀ earlier ∈ before, Describing earlier.2.attributes) ∧ ¬ Describing i.2.attributes ∧
        ∃ fault, extract allowed (groupByModule (placedIn members)) = .error fault ∧
          fault.address? = some i.2.address) := by
  obtain ⟨hall, hfirst⟩ := extract_spec allowed (groupByModule (placedIn members))
  rw [candidates_groupByModule, List.forall_mem_map] at hall hfirst
  refine ⟨fun h => (hall h).trans ?_, fun h => ?_⟩
  · rw [List.filterMap_map]
    rfl
  · obtain ⟨before, c, behind, hsplit, hbefore, hc, hfail⟩ := hfirst h
    obtain ⟨before, others, hgroups, rfl, hothers⟩ := List.map_eq_append_iff.mp hsplit
    obtain ⟨i, behind, rfl, rfl, rfl⟩ := List.map_eq_cons_iff.mp hothers
    rw [List.forall_mem_map] at hbefore
    exact ⟨before, i, behind, hgroups, hbefore, hc, hfail⟩

section Decoding

variable {arnless : List Text} {members : List (Text × Json)}
  (hversion : (member "version" members).isNat 4 = true)

include hversion

-- If the structure is as it should be the instances decide.
theorem decode_of_structured (h : Structured members) : decode arnless (.obj members) =
    extract (arnlessTypes ++ arnless) (groupByModule (placedIn members)) := by
  rw [decode, modulesOf, if_pos hversion, (decides_readModules members).ok h]
  rfl

theorem decode_of_not_structured (h : ¬ Structured members) :
    ∃ fault, decode arnless (.obj members) = .error fault ∧ fault.address? = none := by
  obtain ⟨fault, hfail, haddress⟩ := (decides_readModules members).error h
  refine ⟨fault, ?_, haddress⟩
  rw [decode, modulesOf, if_pos hversion, hfail]
  rfl

end Decoding

/-- **A document of version 4 is decoded exactly if its structure is as it should be and every current
managed instance can be described.** Then the descriptors are those of its instances, module by module
in the order in which resources first name the modules, and in document order in each module: no
instance is lost, repeated or moved. Otherwise the fault is found at no address if the structure is to
blame, and at the address of the first instance in that order that cannot be described if it is not. -/
theorem decoded_iff (arnless : List Text) {members : List (Text × Json)}
    (hversion : (member "version" members).isNat 4 = true) :
    let result := decode arnless (.obj members)
    (result.toBool = true ↔
        Structured members ∧ ∀ i ∈ instancesIn members, Describing i.2.attributes) ∧
      (∀ descriptors, result = .ok descriptors → descriptors =
        (groupedIn members).filterMap fun i => i.2.descriptor? (arnlessTypes ++ arnless)) ∧
      (groupedIn members).Perm (instancesIn members) ∧
      (∀ address, (groupedIn members).filter (·.1 = address) =
        (instancesIn members).filter (·.1 = address)) ∧
      (¬ Structured members → ∃ fault, result = .error fault ∧
        ∀ path, (fault.toError path).topic = .decode path none) ∧
      ∀ fault, Structured members → result = .error fault →
        ∃ before i behind, groupedIn members = before ++ i :: behind ∧
          (∀ earlier ∈ before, Describing earlier.2.attributes) ∧ ¬ Describing i.2.attributes ∧
          ∀ path, (fault.toError path).topic = .decode path (some i.2.address) := by
  intro result
  have hgrouped : (∀ i ∈ groupedIn members, Describing i.2.attributes) ↔
      ∀ i ∈ instancesIn members, Describing i.2.attributes :=
    forall_congr' fun i => imp_congr_left (groupedIn_perm members).mem_iff
  obtain ⟨hall, hfirst⟩ := extract_groupByModule (arnlessTypes ++ arnless) members
  have hperm := groupedIn_perm members
  have hfilter := filter_groupedIn members
  by_cases hstructured : Structured members
  · have hresult : result = _ := decode_of_structured hversion hstructured
    by_cases hgood : ∀ i ∈ groupedIn members, Describing i.2.attributes
    · rw [hall hgood] at hresult
      rw [hresult]
      refine ⟨iff_of_true rfl ⟨hstructured, hgrouped.mp hgood⟩, ?_, hperm, hfilter,
        fun hnot => absurd hstructured hnot, ?_⟩
      · intro descriptors hok
        exact (Except.ok.inj hok).symm
      · intro fault _ hfail
        cases hfail
    · obtain ⟨before, i, behind, hgroups, hbefore, hi, found, hfail, haddress⟩ := hfirst hgood
      rw [hfail] at hresult
      rw [hresult]
      refine ⟨iff_of_false (by simp [Except.toBool]) fun h => hgood (hgrouped.mpr h.2), ?_, hperm,
        hfilter, fun hnot => absurd hstructured hnot, ?_⟩
      · intro descriptors hok
        cases hok
      · intro fault _ hsame
        obtain rfl := Except.error.inj hsame
        refine ⟨before, i, behind, hgroups, hbefore, hi, fun path => ?_⟩
        rw [Fault.toError_topic, haddress]
  · obtain ⟨found, hresult, haddress⟩ : ∃ fault, result = .error fault ∧ fault.address? = none :=
      decode_of_not_structured hversion hstructured
    rw [hresult]
    refine ⟨iff_of_false (by simp [Except.toBool]) fun h => hstructured h.1, ?_, hperm, hfilter,
      fun _ => ⟨found, rfl, fun path => ?_⟩, fun _ h => absurd h hstructured⟩
    · intro descriptors hok
      cases hok
    · rw [Fault.toError_topic, haddress]

/-- A resource with one instance, whose identifier is the resource's name. -/
def sampleResource (module type name : Text) (arn : Json) : Json :=
  .obj [("module", .str module), ("type", .str type), ("name", .str name), ("instances",
    .arr [.obj [("attributes", .obj [("id", .str name), ("arn", arn)])]])]

/-- The resources of one module stand together in what is decoded, though another one's stands between
them in the document; one without a resource name is passed over. -/
theorem decoded_of_interleaved :
    let members : List (Text × Json) := [("version", .int 4), ("resources",
      .arr [sampleResource "m" "t" "a" (.str "x"), sampleResource [] "t" "b" (.str "y"),
        sampleResource "m" "t" "c" .null, sampleResource "m" "t" "d" (.str "z")])]
    (member "version" members).isNat 4 = true ∧ ∃ descriptors,
      decode [] (.obj members) = .ok descriptors ∧ descriptors =
        [⟨"a", "x", "t", "m.t.a"⟩, ⟨"d", "z", "t", "m.t.d"⟩, ⟨"b", "y", "t", "t.b"⟩] := by
  intro members
  have hversion : (member "version" members).isNat 4 = true := by decide
  obtain ⟨hiff, hvalue, -⟩ := decoded_iff [] hversion
  have hok := hiff.mpr ⟨by decide, by decide⟩
  rcases hdecode : decode [] (.obj members) with fault | descriptors
  · rw [hdecode] at hok
    simp [Except.toBool] at hok
  · exact ⟨hversion, descriptors, rfl, (hvalue descriptors hdecode).trans (by decide)⟩

end StateOwnership.State.Current
