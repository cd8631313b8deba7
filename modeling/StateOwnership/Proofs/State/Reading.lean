import StateOwnership.State.Decode

/-!
# Reading all of a document or nothing

What a part of a state document holds does not depend on how it is read. **A reader gives all that
its part holds if the part is as it should be, and a fault at a known address otherwise**; parts in
order give all that they hold, or the fault of the first one that is not as it should be.
-/

namespace StateOwnership.State

-- An error about a document names the address that the fault was found at.
theorem Fault.toError_topic (fault : Fault) (path : Option Text) :
    (fault.toError path).topic = .decode path fault.address? := by
  cases path <;> rfl

/-! ## 1. Readers that decide a condition -/

/-- A result is the given value if a condition holds, and otherwise a fault at the given address, or
at no address. -/
structure Decides {α : Type} (address : Option Text) (condition : Prop) (value : α)
    (result : Except Fault α) : Prop where
  ok : condition → result = .ok value
  error : ¬ condition → ∃ fault, result = .error fault ∧ fault.address? = address

namespace Decides

variable {α β : Type} {address : Option Text} {p q : Prop} {a : α} {b : β}

@[simp] theorem ok_iff {found : α} : Decides address p a (.ok found) ↔ p ∧ found = a := by
  constructor
  · intro h
    by_cases hp : p
    · exact ⟨hp, Except.ok.inj (h.ok hp)⟩
    · obtain ⟨fault, hfault, -⟩ := h.error hp
      cases hfault
  · rintro ⟨hp, rfl⟩
    exact ⟨fun _ => rfl, fun hnot => absurd hp hnot⟩

@[simp] theorem error_iff {fault : Fault} :
    Decides address p a (.error fault) ↔ ¬ p ∧ fault.address? = address := by
  constructor
  · intro h
    have hnot : ¬ p := fun hp => by cases h.ok hp
    obtain ⟨found, hfound, haddress⟩ := h.error hnot
    cases hfound
    exact ⟨hnot, haddress⟩
  · rintro ⟨hnot, haddress⟩
    exact ⟨fun hp => absurd hp hnot, fun _ => ⟨fault, rfl, haddress⟩⟩

theorem pure (a : α) : Decides address True a (pure a) :=
  ok_iff.mpr ⟨trivial, rfl⟩

-- Of two readers in order the second one is asked if the condition of the first one holds.
theorem bind {result : Except Fault α} {next : α → Except Fault β}
    (h : Decides address p a result) (hnext : p → Decides address q b (next a)) :
    Decides address (p ∧ q) b (result >>= next) := by
  constructor
  · rintro ⟨hp, hq⟩
    rw [h.ok hp]
    exact (hnext hp).ok hq
  · intro hnot
    by_cases hp : p
    · rw [h.ok hp]
      exact (hnext hp).error fun hq => hnot ⟨hp, hq⟩
    · obtain ⟨found, hresult, haddress⟩ := h.error hp
      rw [hresult]
      exact ⟨found, rfl, haddress⟩

theorem congr {result : Except Fault α} {other : α} (h : Decides address p a result)
    (hpq : p ↔ q) (hvalue : a = other) : Decides address q other result :=
  hvalue ▸ ⟨fun hq => h.ok (hpq.mpr hq), fun hq => h.error fun hp => hq (hpq.mp hp)⟩

section Lists

variable {read : α → Except Fault β} {addressOf : α → Option Text} {good : α → Prop}
  {valueOf : α → β}

-- Items in order are read if all of them are good.
theorem mapM_ok {items : List α}
    (h : ∀ item ∈ items, Decides (addressOf item) (good item) (valueOf item) (read item))
    (hgood : ∀ item ∈ items, good item) : items.mapM read = .ok (items.map valueOf) := by
  induction items with
  | nil => rfl
  | cons item rest ih =>
    rw [List.forall_mem_cons] at h hgood
    rw [List.mapM_cons, h.1.ok hgood.1, ih h.2 hgood.2]
    rfl

-- Items in order fail at the first that is not good.
theorem mapM_error {items : List α}
    (h : ∀ item ∈ items, Decides (addressOf item) (good item) (valueOf item) (read item))
    (hgood : ¬ ∀ item ∈ items, good item) :
    ∃ before item behind, items = before ++ item :: behind ∧ (∀ earlier ∈ before, good earlier) ∧
      ¬ good item ∧
      ∃ fault, items.mapM read = .error fault ∧ fault.address? = addressOf item := by
  induction items with
  | nil => simp at hgood
  | cons first rest ih =>
    rw [List.forall_mem_cons] at h
    rw [List.mapM_cons]
    by_cases hfirst : good first
    · have hrest : ¬ ∀ item ∈ rest, good item :=
        fun hall => hgood (List.forall_mem_cons.mpr ⟨hfirst, hall⟩)
      obtain ⟨before, item, behind, rfl, hbefore, hitem, found, hfail, haddress⟩ :=
        ih h.2 hrest
      refine ⟨first :: before, item, behind, rfl, List.forall_mem_cons.mpr ⟨hfirst, hbefore⟩,
        hitem, found, ?_, haddress⟩
      rw [h.1.ok hfirst, hfail]
      rfl
    · obtain ⟨found, hfail, haddress⟩ := h.1.error hfirst
      refine ⟨[], first, rest, rfl, by simp, hfirst, found, ?_, haddress⟩
      rw [hfail]
      rfl

theorem mapM {items : List α}
    (h : ∀ item ∈ items, Decides address (good item) (valueOf item) (read item)) :
    Decides address (∀ item ∈ items, good item) (items.map valueOf) (items.mapM read) := by
  refine ⟨mapM_ok h, fun hgood => ?_⟩
  obtain ⟨-, -, -, -, -, -, found, hfail, haddress⟩ := mapM_error h hgood
  exact ⟨found, hfail, haddress⟩

end Lists

end Decides

/-! ## 2. Fields -/

def isObject : Json → Bool
  | .obj _ => true
  | _ => false

def isListOrNull : Json → Bool
  | .null | .arr _ => true
  | _ => false

def isTextOrNull : Json → Bool
  | .null | .str _ => true
  | _ => false

def isFilledText : Json → Bool
  | .str (_ :: _) => true
  | _ => false

/-- The members of an object; other values have none. -/
def membersIn : Json → List (Text × Json)
  | .obj members => members
  | _ => []

/-- The items of a list; other values have none. -/
def itemsIn : Json → List Json
  | .arr items => items
  | _ => []

/-- A text; other values stand for the one given. -/
def textIn (absent : Text) : Json → Text
  | .str t => t
  | _ => absent

theorem decides_membersOf (field : Text) (value : Json) :
    Decides none (isObject value = true) (membersIn value) (membersOf field value) := by
  cases value <;> simp [isObject, membersOf, membersIn, Fault.address?]

theorem decides_listOf (field : Text) (value : Json) :
    Decides none (isListOrNull value = true) (itemsIn value) (listOf field value) := by
  cases value <;> simp [isListOrNull, listOf, itemsIn, Fault.address?]

theorem decides_textOf (field absent : Text) (value : Json) :
    Decides none (isTextOrNull value = true) (textIn absent value) (textOf field absent value) := by
  cases value <;> simp [isTextOrNull, textOf, textIn, Fault.address?]

/-! ## 3. Instances -/

/-- The members of an instance's attributes: those of an object, or of the one that a text spells. -/
def spelled : Json → Option (List (Text × Json))
  | .obj members => some members
  | .str document =>
    match Json.ofText document with
    | .ok (.obj members) => some members
    | _ => none
  | _ => none

/-- Attributes that describe an instance: an object whose identifier is a text that is not empty and
whose resource name, if it has one, is a text. -/
def Describing (attributes : Json) : Prop :=
  ∃ members ∈ spelled attributes,
    isFilledText (member "id" members) = true ∧ isTextOrNull (member "arn" members) = true

instance : DecidablePred Describing := fun attributes =>
  inferInstanceAs (Decidable (∃ members ∈ spelled attributes, _))

/-- The resource name that an instance of a type is kept under: its own one, or an empty one if the
type is among the `allowed` ones. -/
def keptName (allowed : List Text) (type : Text) : Json → Option Text
  | .str arn => some arn
  | _ => if allowed.contains type then some [] else none

def Candidate.descriptor? (allowed : List Text) (c : Candidate) : Option Descriptor :=
  let members := (spelled c.attributes).getD []
  (keptName allowed c.type (member "arn" members)).map fun arn =>
    ⟨textIn [] (member "id" members), arn, c.type, c.address⟩

section Attributes

variable (allowed : List Text) (type address : Text) (members : List (Text × Json))

theorem decides_attributeMembers (attributes : Json) :
    Decides (some address) ((spelled attributes).isSome = true) ((spelled attributes).getD [])
      (attributeMembers address attributes) := by
  cases attributes with
  | str document =>
    simp only [attributeMembers, spelled]
    rcases Json.ofText document with fault | (_ | _ | _ | _ | _ | _ | _) <;>
      simp [Fault.address?]
  | _ => simp [attributeMembers, spelled, Fault.address?]

theorem decides_idOf : Decides (some address) (isFilledText (member "id" members) = true)
    (textIn [] (member "id" members)) (idOf address members) := by
  simp only [idOf, member]
  rcases member? "id" members with _ | (_ | _ | _ | _ | (_ | _) | _ | _) <;>
    simp [isFilledText, textIn, Fault.address?]

theorem decides_arnOf : Decides (some address) (isTextOrNull (member "arn" members) = true)
    (keptName allowed type (member "arn" members)) (arnOf allowed type address members) := by
  simp only [arnOf, member]
  rcases member? "arn" members with _ | (_ | _ | _ | _ | _ | _ | _) <;>
    simp [isTextOrNull, keptName, Fault.address?]

end Attributes

-- A current managed instance is described if its attributes allow it, and else fails at its address.
theorem decides_describe (allowed : List Text) (c : Candidate) :
    Decides (some c.address) (Describing c.attributes) (c.descriptor? allowed)
      (describe allowed c.type c.address c.attributes) := by
  refine Decides.congr ((decides_attributeMembers c.address c.attributes).bind fun _ =>
    (decides_idOf c.address _).bind fun _ =>
      (decides_arnOf allowed c.type c.address _).bind fun _ => .pure _) ?_ rfl
  rw [Describing]
  cases spelled c.attributes <;> simp

-- Current managed instances are all described, or the first fails that cannot be described.
theorem extract_spec (allowed : List Text) (modules : List Module) :
    ((∀ c ∈ candidates modules, Describing c.attributes) →
      extract allowed modules =
        .ok ((candidates modules).filterMap fun c => c.descriptor? allowed)) ∧
    ((¬ ∀ c ∈ candidates modules, Describing c.attributes) →
      ∃ before c behind, candidates modules = before ++ c :: behind ∧
        (∀ earlier ∈ before, Describing earlier.attributes) ∧ ¬ Describing c.attributes ∧
        ∃ fault, extract allowed modules = .error fault ∧ fault.address? = some c.address) := by
  constructor
  · intro hall
    rw [extract, Decides.mapM_ok (fun c _ => decides_describe allowed c) hall]
    show Except.ok (((candidates modules).map fun c => c.descriptor? allowed).filterMap id) = _
    rw [List.filterMap_map]
    rfl
  · intro hall
    obtain ⟨before, c, behind, hsplit, hbefore, hc, fault, hfail, haddress⟩ :=
      Decides.mapM_error (fun c _ => decides_describe allowed c) hall
    refine ⟨before, c, behind, hsplit, hbefore, hc, fault, ?_, haddress⟩
    rw [extract, hfail]
    rfl

end StateOwnership.State
