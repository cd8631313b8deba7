import StateOwnership.Proofs.State.Ignoring

/-!
# Types that need no resource name

An instance that has no resource name is kept under an empty one if its type needs none, and passed
over otherwise; one whose resource name is the empty text is kept whatever its type. **Allowing more
types to have none adds descriptors of these types to a decoding, and changes neither the others nor
the faults.**
-/

namespace StateOwnership.State

/-! ## 1. Sources -/

/-- A document as it is written: in octets or in text. -/
inductive Source where
  | octets (octets : Bytes)
  | text (t : Text)

namespace Source

def document : Source → Except Json.Fault Json
  | octets written => Json.ofBytes written
  | text written => Json.ofText written

def decode (arnless : List Text) : Source → Except Fault (List Descriptor)
  | octets written => decodeBytes arnless written
  | text written => decodeText arnless written

/-- The current managed instances of the document, if its modules can be read. -/
def candidates (source : Source) : List Candidate :=
  match source.document with
  | .ok document =>
    match modulesOf document with
    | .ok modules => State.candidates modules
    | .error _ => []
  | .error _ => []

def Unreadable (source : Source) : Prop :=
  ∃ document ∈ source.document.toOption, UnreadableDocument document

instance (source : Source) : Decidable source.Unreadable :=
  inferInstanceAs (Decidable (∃ document ∈ source.document.toOption, UnreadableDocument document))

variable {source : Source} {arnless : List Text}

theorem decode_of_document {document : Json} (h : source.document = .ok document) :
    source.decode arnless = State.decode arnless document := by
  cases source <;> simp only [Source.document] at h <;>
    simp only [decode, decodeBytes, decodeText, h]

theorem decode_of_fault {fault : Json.Fault} (h : source.document = .error fault) :
    source.decode arnless = .error (.document fault) := by
  cases source <;> simp only [Source.document] at h <;>
    simp only [decode, decodeBytes, decodeText, h]

-- What a decoding gives are the descriptors of its instances, all of which can be described.
theorem of_decode_ok {descriptors : List Descriptor} (h : source.decode arnless = .ok descriptors) :
    (∀ c ∈ source.candidates, Describing c.attributes) ∧
      descriptors = source.candidates.filterMap (·.descriptor? (arnlessTypes ++ arnless)) := by
  cases hdocument : source.document with
  | error fault => simp [decode_of_fault hdocument] at h
  | ok document =>
    rw [decode_of_document hdocument, State.decode] at h
    cases hmodules : modulesOf document with
    | error fault =>
      rw [hmodules] at h
      cases h
    | ok modules =>
      replace h : extract (arnlessTypes ++ arnless) modules = .ok descriptors := by
        rwa [hmodules] at h
      have hcandidates : source.candidates = State.candidates modules := by
        simp only [candidates, hdocument, hmodules]
      rw [hcandidates]
      obtain ⟨hgood, hbad⟩ := extract_spec (arnlessTypes ++ arnless) modules
      by_cases hall : ∀ c ∈ State.candidates modules, Describing c.attributes
      · exact ⟨hall, Except.ok.inj (h.symm.trans (hgood hall))⟩
      · obtain ⟨-, -, -, -, -, -, fault, hfail, -⟩ := hbad hall
        cases h.symm.trans hfail

theorem failsAtNumber_decode : FailsAtNumber (source.decode arnless) ↔ source.Unreadable := by
  cases hdocument : source.document with
  | error fault => simp [decode_of_fault hdocument, Unreadable, hdocument, Except.toOption]
  | ok document =>
    rw [decode_of_document hdocument, State.failsAtNumber_decode, Unreadable, hdocument]
    simp [Except.toOption]

end Source

/-! ## 2. Empty resource names -/

/-- The resource name of an instance is there, and is the empty text. -/
def Candidate.NamedEmpty (c : Candidate) : Prop :=
  member "arn" ((spelled c.attributes).getD []) = .str []

instance : DecidablePred Candidate.NamedEmpty := fun _ =>
  inferInstanceAs (Decidable (_ = _))

section Names

variable {allowed : List Text} {c : Candidate} {d : Descriptor}

theorem keptName_eq_empty {type : Text} {arn : Json} (h : keptName allowed type arn = some []) :
    arn = .str [] ∨ type ∈ allowed := by
  cases arn with
  | str t => exact .inl (congrArg Json.str (Option.some.inj h))
  | _ => exact .inr (by simpa [keptName] using h)

theorem descriptor?_eq_some (h : c.descriptor? allowed = some d) :
    d.resourceType = c.type ∧ d.address = c.address ∧
      d.id = textIn [] (member "id" ((spelled c.attributes).getD [])) ∧
      keptName allowed c.type (member "arn" ((spelled c.attributes).getD [])) = some d.arn := by
  obtain ⟨arn, harn, rfl⟩ := Option.map_eq_some_iff.mp h
  exact ⟨rfl, rfl, rfl, harn⟩

-- An instance that can be described has an identifier.
theorem id_ne_nil (hgood : Describing c.attributes) (h : c.descriptor? allowed = some d) :
    d.id ≠ [] := by
  obtain ⟨-, -, hid, -⟩ := descriptor?_eq_some h
  obtain ⟨members, hmembers, hfilled, -⟩ := hgood
  rw [hid, Option.mem_def.mp hmembers, Option.getD_some]
  rcases hvalue : member "id" members with _ | _ | _ | _ | (_ | _) | _ | _ <;>
    simp [hvalue, isFilledText] at hfilled
  exact List.cons_ne_nil _ _

-- A descriptor without a resource name has an allowed type, or got the empty one of its instance.
theorem allowed_or_namedEmpty (h : c.descriptor? allowed = some d) (harn : d.arn = []) :
    d.resourceType ∈ allowed ∨ c.NamedEmpty := by
  obtain ⟨htype, -, -, hkept⟩ := descriptor?_eq_some h
  rw [harn] at hkept
  rw [htype]
  exact (keptName_eq_empty hkept).symm

-- An instance with an empty resource name is kept under it.
theorem descriptor?_of_namedEmpty (h : c.NamedEmpty) :
    ∃ d, c.descriptor? allowed = some d ∧ d.arn = [] ∧ d.resourceType = c.type := by
  refine ⟨⟨textIn [] (member "id" ((spelled c.attributes).getD [])), [], c.type, c.address⟩,
    ?_, rfl, rfl⟩
  rw [Candidate.descriptor?, h]
  rfl

end Names

/-- **Every descriptor has an identifier. Those without a resource name are all of types that need
none if and only if every instance whose resource name is the empty text is of such a type.** -/
theorem nameless_iff {source : Source} {arnless : List Text} {descriptors : List Descriptor}
    (h : source.decode arnless = .ok descriptors) :
    (∀ d ∈ descriptors, d.id ≠ []) ∧
      ((∀ d ∈ descriptors, d.arn = [] →
          d.resourceType ∈ arnlessTypes ∨ d.resourceType ∈ arnless) ↔
        ∀ c ∈ source.candidates, c.NamedEmpty → c.type ∈ arnlessTypes ∨ c.type ∈ arnless) := by
  obtain ⟨hgood, rfl⟩ := source.of_decode_ok h
  refine ⟨fun d hd => ?_, fun hnameless c hc hempty => ?_, fun hempty d hd harn => ?_⟩
  · obtain ⟨c, hc, hdescriptor⟩ := List.mem_filterMap.mp hd
    exact id_ne_nil (hgood c hc) hdescriptor
  · obtain ⟨d, hdescriptor, harn, htype⟩ := descriptor?_of_namedEmpty hempty
    rw [← htype]
    exact hnameless d (List.mem_filterMap.mpr ⟨c, hc, hdescriptor⟩) harn
  · obtain ⟨c, hc, hdescriptor⟩ := List.mem_filterMap.mp hd
    rcases allowed_or_namedEmpty hdescriptor harn with hallowed | hnamed
    · exact List.mem_append.mp hallowed
    · rw [(descriptor?_eq_some hdescriptor).1]
      exact hempty c hc hnamed

/-- A document of version 4 with instances of type `t`, whose attributes have the members given. -/
def sourceOf (attributes : List Text) : Source :=
  .text ("\x7b\"version\":4,\"resources\":[\x7b\"type\":\"t\",\"name\":\"n\",\"instances\":[" ++
    Text.joinWith "," (attributes.map fun members => "\x7b\"attributes\":\x7b" ++ members ++
      "\x7d\x7d") ++ "]\x7d]\x7d")

/-- An instance without a resource name is kept under an empty one, its type being allowed. -/
theorem nameless_of_allowed_type :
    ∃ descriptors, (sourceOf ["\"id\":\"i\"", "\"id\":\"j\",\"arn\":\"a\""]).decode ["t"] =
        .ok descriptors ∧
      (∀ d ∈ descriptors, d.arn = [] →
        d.resourceType ∈ arnlessTypes ∨ d.resourceType ∈ (["t"] : List Text)) ∧
      descriptors = [⟨"i", [], "t", "t.n"⟩, ⟨"j", "a", "t", "t.n"⟩] := by
  have hdecode : (sourceOf ["\"id\":\"i\"", "\"id\":\"j\",\"arn\":\"a\""]).decode ["t"] =
      .ok [⟨"i", [], "t", "t.n"⟩, ⟨"j", "a", "t", "t.n"⟩] := by decide +kernel
  exact ⟨_, hdecode, (nameless_iff hdecode).2.mpr (by decide +kernel), rfl⟩

/-- **An instance whose resource name is the empty text is kept without one, though its type is not
among those that need none.** -/
theorem nameless_of_empty_name :
    (sourceOf ["\"id\":\"i\",\"arn\":\"\""]).decode [] = .ok [⟨"i", [], "t", "t.n"⟩] ∧
      ("t" : Text) ∉ arnlessTypes := by
  decide +kernel

/-! ## 3. More types -/

/-- A list from which some items were left out, all of which meet a condition. -/
inductive Thinned {α : Type} (P : α → Prop) : List α → List α → Prop where
  | nil : Thinned P [] []
  | keep (a : α) {items others : List α} (h : Thinned P items others) :
      Thinned P (a :: items) (a :: others)
  | leave {a : α} {items others : List α} (ha : P a) (h : Thinned P items others) :
      Thinned P items (a :: others)

/-- An item is there in both of two cases, in neither, or only in the second one and meets a
condition. -/
inductive Gained {α : Type} (P : α → Prop) : Option α → Option α → Prop where
  | same (found : Option α) : Gained P found found
  | new {a : α} (ha : P a) : Gained P none (some a)

namespace Thinned

variable {α : Type} {P Q : α → Prop} {items others : List α}

theorem sublist (h : Thinned P items others) : items.Sublist others := by
  induction h with
  | nil => exact .slnil
  | keep a _ ih => exact ih.cons_cons a
  | leave _ _ ih => exact ih.cons _

theorem mono (h : Thinned P items others) (hPQ : ∀ a, P a → Q a) : Thinned Q items others := by
  induction h with
  | nil => exact .nil
  | keep a _ ih => exact .keep a ih
  | leave ha _ ih => exact .leave (hPQ _ ha) ih

-- Nothing is left out under a condition that nothing meets.
theorem eq_of_forall_not (h : Thinned P items others) (hnone : ∀ a, ¬ P a) : items = others := by
  induction h with
  | nil => rfl
  | keep a _ ih => rw [ih]
  | leave ha _ _ => exact absurd ha (hnone _)

theorem of_gained {found wider : List (Option α)} (h : List.Forall₂ (Gained P) found wider) :
    Thinned P (found.filterMap id) (wider.filterMap id) := by
  induction h with
  | nil => exact .nil
  | @cons first _ _ _ hfirst _ ih =>
    cases hfirst with
    | same =>
      cases first with
      | none => exact ih
      | some a => exact .keep a ih
    | new ha => exact .leave ha ih

end Thinned

/-- A descriptor without a resource name, whose type is among those of the second list, and not
among those of the first. -/
def Descriptor.AllowedSince (allowed more : List Text) (d : Descriptor) : Prop :=
  d.arn = [] ∧ d.resourceType ∈ more ∧ d.resourceType ∉ allowed

section Runs

open Current (Matched)

variable {allowed more arnless : List Text}

-- With more types allowed an instance is described alike, or one is described that was passed over.
theorem describe_matched (h : allowed ⊆ more) (c : Candidate) :
    Matched (Gained (Descriptor.AllowedSince allowed more))
      (describe allowed c.type c.address c.attributes)
      (describe more c.type c.address c.attributes) := by
  refine (Matched.refl (fun _ => rfl) (attributeMembers c.address c.attributes)).bind ?_
  rintro members _ rfl
  refine (Matched.refl (fun _ => rfl) (idOf c.address members)).bind ?_
  rintro id _ rfl
  have harn (arn : Option Text) : Matched (Gained (Descriptor.AllowedSince allowed more))
      (.ok (arn.map fun arn => ⟨id, arn, c.type, c.address⟩))
      (.ok (arn.map fun arn => ⟨id, arn, c.type, c.address⟩)) := .value (.same _)
  -- The list of types is looked at only if there is no resource name, and no fault hangs on it.
  have hnone : Matched (Gained (Descriptor.AllowedSince allowed more))
      (.ok ((if allowed.contains c.type then some [] else none : Option Text).map fun arn =>
        ⟨id, arn, c.type, c.address⟩))
      (.ok ((if more.contains c.type then some [] else none : Option Text).map fun arn =>
        ⟨id, arn, c.type, c.address⟩)) := by
    by_cases hmore : c.type ∈ more
    · by_cases hallowed : c.type ∈ allowed
      · simpa [hmore, hallowed] using harn (some [])
      · simpa [hmore, hallowed] using .value (.new ⟨rfl, hmore, hallowed⟩)
    · have hallowed : c.type ∉ allowed := fun hmem => hmore (h hmem)
      simpa [hmore, hallowed] using harn none
  unfold arnOf
  rcases member? "arn" members with _ | (_ | _ | _ | _ | arn | _ | _)
  · exact hnone
  · exact hnone
  · exact .fault _
  · exact .fault _
  · exact .fault _
  · exact harn (some arn)
  · exact .fault _
  · exact .fault _

theorem extract_matched (h : allowed ⊆ more) (modules : List Module) :
    Matched (Thinned (Descriptor.AllowedSince allowed more)) (extract allowed modules)
      (extract more modules) := by
  have hsame := List.forall₂_same.mpr fun (c : Candidate) (_ : c ∈ candidates modules) => Eq.refl c
  refine (Matched.mapM hsame ?_).bind fun _ _ hgained => .value (.of_gained hgained)
  rintro c _ rfl
  exact describe_matched h c

theorem decode_matched (h : arnless ⊆ more) (document : Json) :
    Matched (Thinned (Descriptor.AllowedSince (arnlessTypes ++ arnless) (arnlessTypes ++ more)))
      (decode arnless document) (decode more document) := by
  refine (Matched.refl (fun _ => rfl) (modulesOf document)).bind ?_
  rintro modules _ rfl
  refine extract_matched (fun t ht => ?_) modules
  exact List.mem_append.mpr ((List.mem_append.mp ht).imp_right fun hmem => h hmem)

theorem Source.decode_matched (h : arnless ⊆ more) (source : Source) :
    Matched (Thinned (Descriptor.AllowedSince (arnlessTypes ++ arnless) (arnlessTypes ++ more)))
      (source.decode arnless) (source.decode more) := by
  cases hdocument : source.document with
  | error fault =>
    rw [decode_of_fault hdocument, decode_of_fault hdocument]
    exact .fault _
  | ok document =>
    rw [decode_of_document hdocument, decode_of_document hdocument]
    exact State.decode_matched h document

/-- Two decodings fail with the same fault, which is reported by an error about the document, or the
first one gives what the second one gives without some descriptors, none of which has a resource
name: their types are in `more`, but not in `arnless`, and are none that need no resource name
anyway. -/
def Widened (arnless more : List Text) (first second : Except Fault (List Descriptor)) : Prop :=
  (∃ fault, first = .error fault ∧ second = .error fault ∧
    ∀ path, decodeFailure path fault = .error (fault.toError (some path))) ∨
  ∃ descriptors others, first = .ok descriptors ∧ second = .ok others ∧
    descriptors.Sublist others ∧
    Thinned (fun d => d.arn = [] ∧ d.resourceType ∈ more ∧ d.resourceType ∉ arnless ∧
      d.resourceType ∉ arnlessTypes) descriptors others

theorem allowedSince_iff (d : Descriptor) :
    d.AllowedSince (arnlessTypes ++ arnless) (arnlessTypes ++ more) ↔ d.arn = [] ∧
      d.resourceType ∈ more ∧ d.resourceType ∉ arnless ∧ d.resourceType ∉ arnlessTypes := by
  simp only [Descriptor.AllowedSince, List.mem_append, not_or]
  tauto

-- Only a fault at a number is not reported by an error about the document.
theorem widened_of_matched {first second : Except Fault (List Descriptor)}
    (h : Matched (Thinned (Descriptor.AllowedSince (arnlessTypes ++ arnless)
      (arnlessTypes ++ more))) first second) :
    Widened arnless more first second ↔ ¬ FailsAtNumber first := by
  cases h with
  | value hthinned =>
    refine iff_of_true (.inr ⟨_, _, rfl, rfl, hthinned.sublist, ?_⟩) (failsAtNumber_ok _)
    exact hthinned.mono fun d => (allowedSince_iff d).mp
  | fault fault =>
    rw [failsAtNumber_error]
    cases fault with
    | index numeral =>
      refine iff_of_false ?_ fun hnot => hnot ⟨numeral, rfl⟩
      rintro (⟨fault, hfault, -, hreported⟩ | ⟨descriptors, others, hok, -⟩)
      · obtain rfl := Except.error.inj hfault
        cases hreported []
      · cases hok
    | _ => exact iff_of_true (.inl ⟨_, rfl, rfl, fun _ => rfl⟩) (by simp)

-- Lists of the same types allow the same.
theorem Source.decode_congr (h : ∀ t, t ∈ arnless ↔ t ∈ more) (source : Source) :
    source.decode arnless = source.decode more := by
  have hmatched := source.decode_matched fun t ht => (h t).mp ht
  generalize source.decode arnless = first at hmatched
  generalize source.decode more = second at hmatched
  cases hmatched with
  | fault fault => rfl
  | value hthinned =>
    rw [hthinned.eq_of_forall_not]
    rintro d hd
    obtain ⟨-, hmore, harnless, -⟩ := (allowedSince_iff d).mp hd
    exact harnless ((h _).mpr hmore)

/-- **Allowing more types to have no resource name adds their descriptors without one to what is
decoded and changes nothing else, if and only if the document does not fail at a number.** At a
number both decodings fail alike, but no error about the document reports it. Order and repetition
in the list of types do not matter. -/
theorem widened_iff (h : arnless ⊆ more) (source : Source) :
    (Widened arnless more (source.decode arnless) (source.decode more) ↔ ¬ source.Unreadable) ∧
      (source.Unreadable → ∃ numeral, source.decode arnless = .error (.index numeral) ∧
        source.decode more = .error (.index numeral)) ∧
      ∀ same, (∀ t, t ∈ same ↔ t ∈ arnless) → source.decode same = source.decode arnless := by
  have hmatched := source.decode_matched h
  refine ⟨?_, fun hunreadable => ?_, fun same hsame => source.decode_congr hsame⟩
  · rw [widened_of_matched hmatched, source.failsAtNumber_decode]
  · have hfails : FailsAtNumber (source.decode arnless) :=
      source.failsAtNumber_decode.mpr hunreadable
    obtain ⟨numeral, hfail⟩ := hfails
    rw [hfail] at hmatched ⊢
    generalize source.decode more = second at hmatched
    cases hmatched
    exact ⟨numeral, rfl, rfl⟩

end Runs

/-- Of two instances the one without a resource name is passed over if their type is not allowed,
and the other one stays as it is. -/
theorem widened_by_type :
    let source := sourceOf ["\"id\":\"i\"", "\"id\":\"j\",\"arn\":\"a\""]
    ([] : List Text) ⊆ ["t"] ∧ ¬ source.Unreadable ∧
      source.decode [] = .ok [⟨"j", "a", "t", "t.n"⟩] ∧
      source.decode ["t"] = .ok [⟨"i", [], "t", "t.n"⟩, ⟨"j", "a", "t", "t.n"⟩] ∧
      Widened [] ["t"] (source.decode []) (source.decode ["t"]) := by
  intro source
  have hreadable : ¬ source.Unreadable := by decide +kernel
  have hsubset : ([] : List Text) ⊆ ["t"] := List.nil_subset _
  exact ⟨hsubset, hreadable, by decide +kernel, by decide +kernel,
    (widened_iff hsubset source).1.mpr hreadable⟩

/-- A document of version 3 with one resource, whose number is a superscript two. -/
def superscriptSource : Source :=
  .text
    "\x7b\"version\":3,\"modules\":[\x7b\"resources\":\x7b\"t.n.\\u00b2\":\x7b\x7d\x7d\x7d]\x7d"

/-- **A superscript in the key of a resource fails alike whatever is allowed, but is reported by no
error about the document.** -/
theorem unwidened_superscript :
    let source := superscriptSource
    source.decode [] = .error (.index (.notDecimal [0xB2])) ∧
      source.decode ["t"] = .error (.index (.notDecimal [0xB2])) ∧
      ¬ Widened [] ["t"] (source.decode []) (source.decode ["t"]) := by
  intro source
  have hfirst : source.decode [] = .error (.index (.notDecimal [0xB2])) := by decide +kernel
  have hsecond : source.decode ["t"] = .error (.index (.notDecimal [0xB2])) := by decide +kernel
  refine ⟨hfirst, hsecond, ?_⟩
  rw [hfirst, hsecond, widened_of_matched (.fault _)]
  simp

end StateOwnership.State
