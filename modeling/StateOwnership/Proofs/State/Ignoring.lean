import Mathlib.Data.List.Forall2
import StateOwnership.Proofs.State.Grouping
import StateOwnership.Proofs.State.Numbers
import StateOwnership.State.File

/-!
# What decoding does not look at

Much of a document of version 4 leaves no trace in its descriptors: what is in an instance that is
deposed or belongs to a resource that is only looked up, the attributes besides the identifier and
the resource name, and all members that have no meaning here. **Documents that differ in such parts
alone are decoded alike**: they give the same descriptors or the same fault.
-/

namespace StateOwnership.State.Current

/-! ## 1. Documents that differ in what is ignored -/

/-- Members of the given names have the same values, or are missing, in both objects. -/
def AgreeOn (names : List Text) (members others : List (Text × Json)) : Prop :=
  ∀ name ∈ names, member? name others = member? name members

instance (names : List Text) (members others : List (Text × Json)) :
    Decidable (AgreeOn names members others) :=
  inferInstanceAs (Decidable (∀ name ∈ names, _))

/-- Attributes that are the same, or objects with the same identifier and resource name. -/
inductive AttributesAlike : Json → Json → Prop where
  | same (attributes : Json) : AttributesAlike attributes attributes
  | objects {members others : List (Text × Json)} (hnamed : AgreeOn ["id", "arn"] members others) :
      AttributesAlike (.obj members) (.obj others)

/-- Instances that differ in what is ignored. All but the mark of a deposed instance is, if it is
deposed or `lookedUp`: its resource is of another mode than the managed one. -/
inductive InstanceAlike (lookedUp : Prop) : Json → Json → Prop where
  | same (value : Json) : InstanceAlike lookedUp value value
  | ignored {members others : List (Text × Json)}
      (hdeposed : (member? "deposed" others).isSome = (member? "deposed" members).isSome)
      (hignored : lookedUp ∨ (member? "deposed" members).isSome = true) :
      InstanceAlike lookedUp (.obj members) (.obj others)
  | current {members others : List (Text × Json)}
      (hnamed : AgreeOn ["deposed", "index_key"] members others)
      (hattributes : Option.Rel AttributesAlike (member? "attributes" members)
        (member? "attributes" others))
      (hflat : Option.Rel AttributesAlike (member? "attributes_flat" members)
        (member? "attributes_flat" others)) :
      InstanceAlike lookedUp (.obj members) (.obj others)

/-- Values that are the same, or lists of as many items that are alike one by one. -/
inductive ItemsAlike (alike : Json → Json → Prop) : Json → Json → Prop where
  | same (value : Json) : ItemsAlike alike value value
  | lists {items others : List Json} (h : List.Forall₂ alike items others) :
      ItemsAlike alike (.arr items) (.arr others)

/-- The mode of a resource is a text, and not the managed mode. -/
def LookedUp (members : List (Text × Json)) : Prop :=
  ∃ mode, member? "mode" members = some (.str mode) ∧ mode ≠ managedMode

/-- Resources that differ in what is ignored. -/
inductive ResourceAlike : Json → Json → Prop where
  | same (value : Json) : ResourceAlike value value
  | objects {members others : List (Text × Json)}
      (hnamed : AgreeOn ["module", "mode", "type", "name"] members others)
      (hinstances : Option.Rel (ItemsAlike (InstanceAlike (LookedUp members)))
        (member? "instances" members) (member? "instances" others)) :
      ResourceAlike (.obj members) (.obj others)

/-- Documents that differ in what is ignored. -/
structure Alike (members others : List (Text × Json)) : Prop where
  named : AgreeOn ["version"] members others
  resources : Option.Rel (ItemsAlike ResourceAlike) (member? "resources" members)
    (member? "resources" others)

theorem AgreeOn.member_eq {names : List Text} {members others : List (Text × Json)}
    (h : AgreeOn names members others) {name : Text} (hname : name ∈ names) :
    member name others = member name members := by
  rw [member, member, h name hname]

/-! ## 2. Readers that read alike -/

/-- Two readings end in the same fault, or in values that are alike. -/
inductive Matched {α : Type} (alike : α → α → Prop) : Except Fault α → Except Fault α → Prop where
  | fault (fault : Fault) : Matched alike (.error fault) (.error fault)
  | value {a b : α} (h : alike a b) : Matched alike (.ok a) (.ok b)

namespace Matched

variable {α β : Type} {alike : α → α → Prop} {alike' : β → β → Prop}

theorem refl (hrefl : ∀ a, alike a a) (result : Except Fault α) : Matched alike result result := by
  cases result with
  | error fault => exact .fault fault
  | ok a => exact .value (hrefl a)

theorem bind {first second : Except Fault α} {next next' : α → Except Fault β}
    (h : Matched alike first second)
    (hnext : ∀ a b, alike a b → Matched alike' (next a) (next' b)) :
    Matched alike' (first >>= next) (second >>= next') := by
  cases h with
  | fault fault => exact .fault fault
  | value hab => exact hnext _ _ hab

-- Items that are read alike one by one are read alike as a list.
theorem mapM {read read' : β → Except Fault α} {items others : List β}
    (h : List.Forall₂ alike' items others)
    (hread : ∀ item other, alike' item other → Matched alike (read item) (read' other)) :
    Matched (List.Forall₂ alike) (items.mapM read) (others.mapM read') := by
  induction h with
  | nil => exact .value .nil
  | cons hfirst hrest ih =>
    rw [List.mapM_cons, List.mapM_cons]
    exact (hread _ _ hfirst).bind fun _ _ hvalue => ih.bind fun _ _ hvalues =>
      .value (.cons hvalue hvalues)

end Matched

theorem listOf_matched (field : Text) {alike : Json → Json → Prop}
    (hrefl : ∀ value, alike value value)
    {name : Text} {members others : List (Text × Json)}
    (h : Option.Rel (ItemsAlike alike) (member? name members) (member? name others)) :
    Matched (List.Forall₂ alike) (listOf field (member name members))
      (listOf field (member name others)) := by
  have hsame : ∀ result, Matched (List.Forall₂ alike) result result :=
    Matched.refl fun items => List.forall₂_same.mpr fun value _ => hrefl value
  rw [member, member]
  generalize member? name members = first at h
  generalize member? name others = second at h
  cases h with
  | none => exact hsame _
  | some hitems =>
    cases hitems with
    | same value => exact hsame _
    | lists hall => exact .value hall

/-! ## 3. Instances and resources -/

/-- Instances of a resource of which the same is read, as far as they are current and the resource
is not only looked up. -/
def Instance.Alike (lookedUp : Prop) (i j : Instance) : Prop :=
  j.isCurrent = i.isCurrent ∧ (i.isCurrent = true → ¬ lookedUp →
    j.indexKey = i.indexKey ∧ AttributesAlike i.attributes j.attributes)

def CandidateAlike (c d : Candidate) : Prop :=
  d.type = c.type ∧ d.address = c.address ∧ AttributesAlike c.attributes d.attributes

def PlacedAlike (p q : Text × Resource) : Prop :=
  q.1 = p.1 ∧ List.Forall₂ CandidateAlike (p.2.candidates p.1) (q.2.candidates q.1)

theorem Instance.Alike.refl (lookedUp : Prop) (i : Instance) : Instance.Alike lookedUp i i :=
  ⟨rfl, fun _ _ => ⟨rfl, .same _⟩⟩

theorem CandidateAlike.refl (c : Candidate) : CandidateAlike c c :=
  ⟨rfl, rfl, .same _⟩

theorem attributesOf_alike {members others : List (Text × Json)}
    (hattributes : Option.Rel AttributesAlike (member? "attributes" members)
      (member? "attributes" others))
    (hflat : Option.Rel AttributesAlike (member? "attributes_flat" members)
      (member? "attributes_flat" others)) :
    AttributesAlike (attributesOf members) (attributesOf others) := by
  unfold attributesOf
  generalize member? "attributes" members = first at hattributes
  generalize member? "attributes" others = second at hattributes
  generalize member? "attributes_flat" members = firstFlat at hflat
  generalize member? "attributes_flat" others = secondFlat at hflat
  cases hattributes with
  | some h => exact h
  | none =>
    cases hflat with
    | some h => exact h
    | none => exact .same _

theorem readInstance_matched {lookedUp : Prop} {value other : Json}
    (h : InstanceAlike lookedUp value other) :
    Matched (Instance.Alike lookedUp) (readInstance value) (readInstance other) := by
  cases h with
  | same => exact .refl (.refl lookedUp) _
  | @ignored members others hdeposed hignored =>
    refine .value ⟨?_, fun hcurrent hmanaged => ?_⟩
    · simp only [← Option.not_isSome, hdeposed]
    · -- What is ignored is not current, unless it is only looked up.
      rw [Option.isNone_iff_eq_none] at hcurrent
      simp [hmanaged, hcurrent] at hignored
  | @current members others hnamed hattributes hflat =>
    refine .value ⟨?_, fun _ _ => ⟨?_, ?_⟩⟩
    · simp only [hnamed "deposed" (by simp)]
    · exact hnamed.member_eq (by simp)
    · exact attributesOf_alike hattributes hflat

theorem candidates_alike {lookedUp : Prop} {mode type name address : Text}
    {instances others : List Instance}
    (h : List.Forall₂ (Instance.Alike lookedUp) instances others)
    (hmanaged : mode = managedMode → ¬ lookedUp) :
    List.Forall₂ CandidateAlike ((⟨mode, type, name, instances⟩ : Resource).candidates address)
      ((⟨mode, type, name, others⟩ : Resource).candidates address) := by
  simp only [Resource.candidates]
  split
  · rename_i hmode
    induction h with
    | nil => exact .nil
    | @cons i j instances others hfirst hrest ih =>
      obtain ⟨hcurrent, hread⟩ := hfirst
      simp only [List.filter_cons, hcurrent]
      split
      · rename_i hi
        obtain ⟨hkey, hattributes⟩ := hread hi (hmanaged hmode)
        refine .cons ⟨rfl, ?_, hattributes⟩ ih
        simp only [Resource.addressOf, hkey]
      · exact ih
  · exact .nil

theorem readResource_matched {value other : Json} (h : ResourceAlike value other) :
    Matched PlacedAlike (readResource value) (readResource other) := by
  cases h with
  | same => exact .refl (fun p => ⟨rfl, List.forall₂_same.mpr fun c _ => .refl c⟩) _
  | @objects members others hnamed hinstances =>
    have heq (name : Text) (hname : name ∈ (["module", "mode", "type", "name"] : List Text)) :=
      hnamed.member_eq hname
    have hsame {field absent : Text} (found : Json) :
        Matched Eq (textOf field absent found) (textOf field absent found) := .refl (fun _ => rfl) _
    have hmembers : Matched (fun found found' => found = members ∧ found' = others)
        (.ok members) (.ok others) := .value ⟨rfl, rfl⟩
    refine hmembers.bind ?_
    rintro members others ⟨rfl, rfl⟩
    rw [heq "module" (by simp), heq "mode" (by simp), heq "type" (by simp),
      heq "name" (by simp)]
    refine (hsame _).bind fun module _ hmodule => ?_
    subst hmodule
    rcases hmode : textOf "resources[].mode" managedMode (member "mode" members) with fault | mode
    · exact .fault fault
    -- A mode that is read as the managed one is not that of a resource that is only looked up.
    have hmanaged : mode = managedMode → ¬ LookedUp members := by
      rintro rfl ⟨mode, hfound, hne⟩
      simp only [member, hfound, Option.getD_some, textOf, Except.ok.injEq] at hmode
      exact hne hmode
    refine (hsame _).bind fun type _ htype => ?_
    subst htype
    refine (hsame _).bind fun name _ hname => ?_
    subst hname
    refine (listOf_matched _ .same hinstances).bind fun values _ hvalues => ?_
    exact (Matched.mapM hvalues fun _ _ => readInstance_matched).bind fun instances _ hread =>
      .value ⟨rfl, candidates_alike hread hmanaged⟩

/-! ## 4. Modules and descriptors -/

-- Grouping resources by module keeps their current managed instances alike.
theorem candidates_groupByModule_alike {placed others : List (Text × Resource)}
    (h : List.Forall₂ PlacedAlike placed others) : List.Forall₂ CandidateAlike
      (candidates (groupByModule placed)) (candidates (groupByModule others)) := by
  have hnames : others.map Prod.fst = placed.map Prod.fst := by
    induction h with
    | nil => rfl
    | cons hfirst _ ih => rw [List.map_cons, List.map_cons, hfirst.1, ih]
  have hmodule (address : Text) : List.Forall₂ CandidateAlike
      (((placed.filter (·.1 = address)).map Prod.snd).flatMap (·.candidates address))
      (((others.filter (·.1 = address)).map Prod.snd).flatMap (·.candidates address)) := by
    clear hnames
    induction h with
    | nil => exact .nil
    | @cons p q placed others hfirst hrest ih =>
      obtain ⟨hname, hcandidates⟩ := hfirst
      by_cases haddress : p.1 = address
      · subst haddress
        simp only [List.filter_cons, hname, decide_true, if_true, List.map_cons, List.flatMap_cons]
        exact List.rel_append (hname ▸ hcandidates) ih
      · simp only [List.filter_cons, hname, haddress, decide_false, Bool.false_eq_true, if_false]
        exact ih
  rw [groupByModule_eq, groupByModule_eq, hnames, candidates, candidates, List.flatMap_map,
    List.flatMap_map]
  generalize (placed.map Prod.fst).eraseDups = addresses
  induction addresses with
  | nil => exact .nil
  | cons address rest ih => exact List.rel_append (hmodule address) ih

theorem describe_alike (allowed : List Text) (type address : Text) {attributes other : Json}
    (h : AttributesAlike attributes other) :
    describe allowed type address other = describe allowed type address attributes := by
  cases h with
  | same => rfl
  | @objects members others hnamed =>
    have hid : idOf address others = idOf address members := by
      rw [idOf, idOf, hnamed "id" (by simp)]
    have harn : arnOf allowed type address others = arnOf allowed type address members := by
      rw [arnOf, arnOf, hnamed "arn" (by simp)]
    show (idOf address others >>= fun id => arnOf allowed type address others >>= _) = _
    rw [hid, harn]
    rfl

-- Modules whose current managed instances are alike give the same.
theorem extract_alike (allowed : List Text) {modules others : List Module}
    (h : List.Forall₂ CandidateAlike (candidates modules) (candidates others)) :
    extract allowed others = extract allowed modules := by
  have hall (first second : List Candidate) (h : List.Forall₂ CandidateAlike first second) :
      (second.mapM fun c => describe allowed c.type c.address c.attributes) =
        first.mapM fun c => describe allowed c.type c.address c.attributes := by
    induction h with
    | nil => rfl
    | cons hfirst _ ih =>
      obtain ⟨htype, haddress, hattributes⟩ := hfirst
      rw [List.mapM_cons, List.mapM_cons, ih, htype, haddress, describe_alike _ _ _ hattributes]
  rw [extract, extract, hall _ _ h]

theorem readModules_matched {members others : List (Text × Json)} (h : Alike members others) :
    Matched (fun modules modules' => List.Forall₂ CandidateAlike (candidates modules)
      (candidates modules')) (readModules members) (readModules others) := by
  refine (listOf_matched _ .same h.resources).bind fun values _ hvalues => ?_
  exact (Matched.mapM hvalues fun _ _ => readResource_matched).bind fun placed _ hplaced =>
    .value (candidates_groupByModule_alike hplaced)

/-! ## 5. The whole of decoding -/

/-- Two decodings give the same descriptors, or the same fault, which is reported by an error about
the document. -/
def SameDecoding (first second : Except Fault (List Descriptor)) : Prop :=
  (∃ descriptors, first = .ok descriptors ∧ second = .ok descriptors) ∨
    ∃ fault, first = .error fault ∧ second = .error fault ∧
      ∀ path, decodeFailure path fault = .error (fault.toError (some path))

theorem decode_eq_of_alike (arnless : List Text) {members others : List (Text × Json)}
    (hversion : (member "version" members).isNat 4 = true) (h : Alike members others) :
    decode arnless (.obj others) = decode arnless (.obj members) := by
  have hversion' : (member "version" others).isNat 4 = true := by
    rwa [h.named.member_eq (by simp)]
  rw [decode, decode, modulesOf, modulesOf, if_pos hversion, if_pos hversion']
  have hmatched := readModules_matched h
  generalize readModules members = first at hmatched
  generalize readModules others = second at hmatched
  cases hmatched with
  | fault fault => rfl
  | value hcandidates => exact extract_alike _ hcandidates

theorem sameDecoding_of_alike (arnless : List Text) {members others : List (Text × Json)}
    (hversion : (member "version" members).isNat 4 = true) (h : Alike members others) :
    SameDecoding (decode arnless (.obj members)) (decode arnless (.obj others)) := by
  have hnumber : ¬ FailsAtNumber (decode arnless (.obj members)) := by
    rw [failsAtNumber_decode]
    exact fun hlegacy => absurd (Json.isNat_unique hversion hlegacy.1) (by decide)
  rw [SameDecoding, decode_eq_of_alike arnless hversion h]
  cases hdecode : decode arnless (.obj members) with
  | ok descriptors => exact .inl ⟨descriptors, rfl, rfl⟩
  | error fault =>
    refine .inr ⟨fault, rfl, rfl, fun path => ?_⟩
    cases fault with
    | index numeral => exact absurd ⟨numeral, hdecode⟩ hnumber
    | _ => rfl

/-- **Documents of version 4 that differ in what is ignored are decoded alike**, whichever types are
kept without a resource name, and whether they are spelled in octets or in text. -/
theorem decode_alike (arnless : List Text) {members others : List (Text × Json)}
    (hversion : (member "version" members).isNat 4 = true) (h : Alike members others) :
    SameDecoding (decode arnless (.obj members)) (decode arnless (.obj others)) ∧
      (∀ octets altered, Json.ofBytes octets = .ok (.obj members) →
        Json.ofBytes altered = .ok (.obj others) →
        SameDecoding (decodeBytes arnless octets) (decodeBytes arnless altered)) ∧
      ∀ t altered, Json.ofText t = .ok (.obj members) → Json.ofText altered = .ok (.obj others) →
        SameDecoding (decodeText arnless t) (decodeText arnless altered) := by
  have hsame := sameDecoding_of_alike arnless hversion h
  refine ⟨hsame, fun octets altered hfirst hsecond => ?_, fun t altered hfirst hsecond => ?_⟩
  · rw [decodeBytes, decodeBytes, hfirst, hsecond]
    exact hsame
  · rw [decodeText, decodeText, hfirst, hsecond]
    exact hsame

/-- A document with a current instance, a deposed one and one that is only looked up, with the
values given in places that are ignored. -/
def ignoringDocument (serial provider tags deposed found : Json) : List (Text × Json) :=
  [("version", .int 4), ("serial", serial), ("resources", .arr [
    .obj [("type", .str "t"), ("name", .str "n"), ("provider", provider), ("instances", .arr [
      .obj [("attributes", .obj [("tags", tags), ("id", .str "i"), ("arn", .str "x")])],
      .obj [("attributes", deposed), ("deposed", .str "k")]])],
    .obj [("mode", .str "data"), ("type", .str "t"), ("name", .str "d"), ("instances", .arr [
      .obj [("attributes", found)]])]])]

/-- Other values in ignored places, some of which would be faults elsewhere, change nothing. -/
theorem decode_alike_of_other_values :
    let members := ignoringDocument (.int 1) .null (.obj []) (.obj [("id", .str "j")]) (.str "")
    let others := ignoringDocument (.str "two") (.arr []) (.int 5) (.int 7) (.obj [("id", .null)])
    (member "version" members).isNat 4 = true ∧ Alike members others ∧
      ∃ descriptors, decode [] (.obj members) = .ok descriptors ∧
        decode [] (.obj others) = .ok descriptors ∧ descriptors = [⟨"i", "x", "t", "t.n"⟩] := by
  intro members others
  have hversion : (member "version" members).isNat 4 = true := by decide
  have halike : Alike members others := by
    refine ⟨?_, .some (.lists (.cons (.objects ?_ (.some (.lists (.cons (.current ?_
      (.some (.objects ?_)) .none) (.cons (.ignored ?_ (.inr ?_)) .nil))))) (.cons (.objects ?_
      (.some (.lists (.cons (.ignored ?_ (.inl ⟨"data", ?_⟩)) .nil)))) .nil)))⟩
    all_goals decide
  have hvalue : decode [] (.obj members) = .ok [⟨"i", "x", "t", "t.n"⟩] := by decide
  refine ⟨hversion, halike, _, hvalue, ?_, rfl⟩
  rcases (decode_alike [] hversion halike).1 with ⟨descriptors, hfirst, hsecond⟩ | ⟨fault, hfail, -⟩
  · rw [hsecond, ← hfirst, hvalue]
  · rw [hvalue] at hfail
    cases hfail

end StateOwnership.State.Current
