import StateOwnership.Config.Document

/-!
# Types of a configuration's fields

Every field of a configuration is declared with a type, and a field may count as absent if what it
holds is null, or has no content. **A configuration is refused if and only if a value that is read is
not of its declared type**; the error then names a field and a value of another type. What counts as
absent is not read, so a wrong type may stand there unnoticed.
-/

namespace StateOwnership.Config

/-! ## 1. What is declared -/

def Declared.admits : Declared → Json → Bool
  | .text, .str _ => true
  | .flag, .bool _ => true
  | .list, .arr _ => true
  | .object, .obj _ => true
  | _, _ => false

/-- What a field may hold and still count as absent. -/
inductive Overlooked where
  | nothing
  | null
  | blank
  deriving DecidableEq, Repr

def Overlooked.covers : Overlooked → Json → Bool
  | .nothing, _ => false
  | .null, value => value = .null
  | .blank, value => value.isBlank

/-- What a value is declared to be, down to its items and members. -/
inductive Schema where
  | text
  | flag
  | list (item : Schema)
  | object (fields : List (Text × Overlooked × Schema))

/-- The type of a value alone, without its items and members. -/
def Schema.declared : Schema → Declared
  | .text => .text
  | .flag => .flag
  | .list _ => .list
  | .object _ => .object

def substitutionSchema : Schema :=
  .object [("old", .nothing, .text), ("new", .nothing, .text)]

def optionsSchema : Schema :=
  .object [("path_substitutions", .blank, .list substitutionSchema),
    ("overwrite", .nothing, .flag), ("arnless_resource_types", .blank, .list .text)]

def backendSchema : Schema :=
  .object [("bucket", .nothing, .text), ("keys", .blank, .list .text), ("region", .blank, .text),
    ("role_arn", .blank, .text), ("external_id", .blank, .text), ("session_name", .blank, .text)]

def schema : Schema :=
  .object [("options", .null, optionsSchema), ("s3", .blank, .list backendSchema),
    ("destination", .blank, .text)]

/-! ## 2. Places in a document -/

/-- Something bad occurs in a value at a declared place, if every field on the way to it is entered. -/
inductive Occurs (enters : Overlooked → Json → Prop) (bad : Schema → Json → Prop) :
    Schema → Json → Prop where
  | here {schema : Schema} {value : Json} (hbad : bad schema value) :
      Occurs enters bad schema value
  | item {schema : Schema} {items : List Json} {item : Json} (hitem : item ∈ items)
      (h : Occurs enters bad schema item) : Occurs enters bad (.list schema) (.arr items)
  | member {fields : List (Text × Overlooked × Schema)} {members : List (Text × Json)}
      {field : Text × Overlooked × Schema} {value : Json} (hfield : field ∈ fields)
      (hmember : Entries.get? field.1 members = some value) (henters : enters field.2.1 value)
      (h : Occurs enters bad field.2.2 value) : Occurs enters bad (.object fields) (.obj members)

def Unlike (schema : Schema) (value : Json) : Prop :=
  schema.declared.admits value = false

/-- A value is wrongly typed: it is neither null nor of the declared type. -/
def WronglyTyped (schema : Schema) (value : Json) : Prop :=
  value ≠ .null ∧ Unlike schema value

/-- A field that is present is read: what it holds does not count as absent. -/
def Read (overlooked : Overlooked) (value : Json) : Prop :=
  overlooked.covers value = false

/-- A field that is present, whatever it holds. -/
def Present (_ : Overlooked) (_ : Json) : Prop := True

/-- A value that is read is not of its declared type. -/
abbrev Refused : Schema → Json → Prop := Occurs Read Unlike

/-- What a field of an object holds is read and refused. -/
def RefusedIn (members : List (Text × Json)) (field : Text × Overlooked × Schema) : Prop :=
  ∃ value, Entries.get? field.1 members = some value ∧ Read field.2.1 value ∧
    Refused field.2.2 value

section Places

variable {enters : Overlooked → Json → Prop} {bad other : Schema → Json → Prop} {s : Schema}
  {value absent : Json} {items : List Json} {members : List (Text × Json)} {name : Text}
  {fields : List (Text × Overlooked × Schema)}

theorem Occurs.mono (h : Occurs enters bad s value)
    (hworse : ∀ schema value, bad schema value → other schema value) :
    Occurs enters other s value := by
  induction h with
  | here hbad => exact .here (hworse _ _ hbad)
  | item hitem _ ih => exact .item hitem ih
  | member hfield hmember henters _ ih => exact .member hfield hmember henters ih

theorem occurs_or : Occurs enters (fun schema value => bad schema value ∨ other schema value) s
    value ↔ Occurs enters bad s value ∨ Occurs enters other s value := by
  constructor
  · intro h
    induction h with
    | here hbad => exact hbad.imp .here .here
    | item hitem _ ih => exact ih.imp (.item hitem) (.item hitem)
    | member hfield hmember henters _ ih =>
      exact ih.imp (.member hfield hmember henters) (.member hfield hmember henters)
  · rintro (h | h)
    · exact h.mono fun _ _ => .inl
    · exact h.mono fun _ _ => .inr

-- Nothing is below a value that is declared to be no list and no object.
theorem refused_leaf (hlist : ∀ item, s ≠ .list item) (hobject : ∀ fields, s ≠ .object fields) :
    Refused s value ↔ Unlike s value := by
  constructor
  · intro h
    cases h with
    | here hbad => exact hbad
    | item _ _ => exact absurd rfl (hlist _)
    | member _ _ _ _ => exact absurd rfl (hobject _)
  · exact .here

theorem refused_list : Refused (.list s) value ↔
    Unlike (.list s) value ∨ ∃ items, value = .arr items ∧ ∃ item ∈ items, Refused s item := by
  constructor
  · rintro (hbad | ⟨hitem, h⟩ | _)
    · exact .inl hbad
    · exact .inr ⟨_, rfl, _, hitem, h⟩
  · rintro (hbad | ⟨items, rfl, item, hitem, h⟩)
    · exact .here hbad
    · exact .item hitem h

theorem refused_arr : Refused (.list s) (.arr items) ↔ ∃ item ∈ items, Refused s item := by
  simp [refused_list, Unlike, Schema.declared, Declared.admits]

theorem refused_obj : Refused (.object fields) (.obj members) ↔
    ∃ field ∈ fields, RefusedIn members field := by
  constructor
  · rintro (hbad | _ | ⟨hfield, hmember, hread, h⟩)
    · simp [Unlike, Schema.declared, Declared.admits] at hbad
    · exact ⟨_, hfield, _, hmember, hread, h⟩
  · rintro ⟨field, hfield, value, hmember, hread, h⟩
    exact .member hfield hmember hread h

-- Where a default stands for an absent member, nothing is refused but what the member holds.
theorem refused_memberOr (habsent : ¬ Refused s absent) :
    Refused s (memberOr absent name members) ↔ RefusedIn members (name, .nothing, s) := by
  rw [memberOr, RefusedIn]
  cases Entries.get? name members with
  | none => simpa using habsent
  | some value => simp [Read, Overlooked.covers]

-- The default stands for a blank member as well.
theorem refused_memberUnlessBlank (habsent : ¬ Refused s absent) :
    Refused s (memberUnlessBlank absent name members) ↔ RefusedIn members (name, .blank, s) := by
  rw [memberUnlessBlank, RefusedIn]
  cases Entries.get? name members with
  | none => simpa using habsent
  | some value => cases hblank : value.isBlank <;> simp [Read, Overlooked.covers, hblank, habsent]

theorem not_refused_emptyText : ¬ Refused .text (.str []) := by
  simp [refused_leaf, Unlike, Schema.declared, Declared.admits]

theorem not_refused_emptyList : ¬ Refused (.list s) (.arr []) := by
  simp [refused_arr]

end Places

/-! ## 3. Readers that refuse -/

/-- Reading ends with an error about the configuration that names a field and a value that was found
there, which is not of the declared type of the field. -/
def Rejected {α : Type} (result : Except Fault α) : Prop :=
  ∃ field declared found, result = .error (.mistyped field declared found) ∧
    declared.admits found = false

/-- Reading is rejected under a condition, and gives something otherwise. -/
structure Refuses {α : Type} (condition : Prop) (result : Except Fault α) : Prop where
  rejected : condition → Rejected result
  accepted : ¬ condition → ∃ a, result = .ok a

namespace Refuses

variable {α β : Type} {p q : Prop} {result : Except Fault α}

theorem congr (h : Refuses p result) (hpq : p ↔ q) : Refuses q result :=
  ⟨fun hq => h.rejected (hpq.mpr hq), fun hq => h.accepted fun hp => hq (hpq.mp hp)⟩

-- There is no error without the condition.
theorem of_error {fault : Fault} (h : Refuses p result) (hfault : result = .error fault) : p := by
  refine Classical.byContradiction fun hp => ?_
  obtain ⟨a, ha⟩ := h.accepted hp
  cases hfault.symm.trans ha

theorem pure (a : α) : Refuses False (pure a) :=
  ⟨False.elim, fun _ => ⟨a, rfl⟩⟩

-- Of two readers in order the second one is asked if the first one gives something.
theorem bind {next : α → Except Fault β} (h : Refuses p result)
    (hnext : ∀ a, result = .ok a → Refuses q (next a)) : Refuses (p ∨ q) (result >>= next) := by
  by_cases hp : p
  · obtain ⟨field, declared, found, rfl, hfound⟩ := h.rejected hp
    exact ⟨fun _ => ⟨field, declared, found, rfl, hfound⟩, fun hnot => absurd (.inl hp) hnot⟩
  · obtain ⟨a, rfl⟩ := h.accepted hp
    exact (hnext a rfl).congr (or_iff_right hp).symm

theorem map (f : α → β) (h : Refuses p result) : Refuses p (result.map f) := by
  constructor
  · intro hp
    obtain ⟨field, declared, found, rfl, hfound⟩ := h.rejected hp
    exact ⟨field, declared, found, rfl, hfound⟩
  · intro hp
    obtain ⟨a, rfl⟩ := h.accepted hp
    exact ⟨f a, rfl⟩

-- Items in order are refused if one of them is.
theorem mapM {read : β → Except Fault α} {bad : β → Prop} (h : ∀ item, Refuses (bad item) (read item))
    (items : List β) : Refuses (∃ item ∈ items, bad item) (items.mapM read) := by
  induction items with
  | nil => exact (pure _).congr (by simp)
  | cons item rest ih =>
    rw [List.mapM_cons]
    refine ((h item).bind fun a _ => ih.bind fun others _ => pure (a :: others)).congr ?_
    simp

end Refuses

section Readers

variable {α : Type} {s : Schema} {value : Json} {members : List (Text × Json)}

theorem refuses_expectText (field : Text) (value : Json) :
    Refuses (Refused .text value) (expectText field value) := by
  rw [refused_leaf (by simp) (by simp)]
  cases value with
  | str t => exact (Refuses.pure t).congr (by simp [Unlike, Schema.declared, Declared.admits])
  | _ => exact ⟨fun h => ⟨_, _, _, rfl, h⟩, fun h => absurd rfl h⟩

theorem refuses_expectFlag (field : Text) (value : Json) :
    Refuses (Refused .flag value) (expectFlag field value) := by
  rw [refused_leaf (by simp) (by simp)]
  cases value with
  | bool b => exact (Refuses.pure b).congr (by simp [Unlike, Schema.declared, Declared.admits])
  | _ => exact ⟨fun h => ⟨_, _, _, rfl, h⟩, fun h => absurd rfl h⟩

theorem refuses_expectList (field : Text) (value : Json) :
    Refuses (Unlike (.list s) value) (expectList field value) := by
  cases value with
  | arr items =>
    exact (Refuses.pure items).congr (by simp [Unlike, Schema.declared, Declared.admits])
  | _ => exact ⟨fun h => ⟨_, _, _, rfl, h⟩, fun h => absurd rfl h⟩

theorem expectList_ok {field : Text} {items : List Json} (h : expectList field value = .ok items) :
    value = .arr items := by
  cases value <;> simp_all [expectList]

-- A list is refused if it is none, or if an item is.
theorem refuses_items {read : Json → Except Fault α}
    (hread : ∀ item, Refuses (Refused s item) (read item)) (field : Text) (value : Json) :
    Refuses (Refused (.list s) value)
      (expectList field value >>= fun items => items.mapM read) := by
  refine ((refuses_expectList (s := s) field value).bind (q := ∃ items, value = .arr items ∧
    ∃ item ∈ items, Refused s item) fun items hitems => ?_).congr refused_list.symm
  obtain rfl := expectList_ok hitems
  exact (Refuses.mapM hread items).congr (by simp)

theorem refuses_expectTexts (field : Text) (value : Json) :
    Refuses (Refused (.list .text) value) (expectTexts field value) :=
  refuses_items (refuses_expectText field) field value

-- An object is refused if it is none, or if something in a field is.
theorem refuses_object {fields : List (Text × Overlooked × Schema)}
    {next : List (Text × Json) → Except Fault α}
    (hnext : ∀ members, Refuses (∃ field ∈ fields, RefusedIn members field) (next members))
    (field : Text) (value : Json) :
    Refuses (Refused (.object fields) value) (expectObject field value >>= next) := by
  cases value with
  | obj members => exact (hnext members).congr refused_obj.symm
  | _ => exact ⟨fun _ => ⟨_, _, _, rfl, rfl⟩, fun h => absurd (.here rfl) h⟩

-- A member is read as its default if it is absent.
theorem refuses_memberOr {read : Json → Except Fault α} {absent : Json}
    (hread : ∀ value, Refuses (Refused s value) (read value)) (habsent : ¬ Refused s absent)
    (name : Text) (members : List (Text × Json)) :
    Refuses (RefusedIn members (name, .nothing, s)) (read (memberOr absent name members)) :=
  (hread _).congr (refused_memberOr habsent)

theorem refuses_memberUnlessBlank {read : Json → Except Fault α} {absent : Json}
    (hread : ∀ value, Refuses (Refused s value) (read value)) (habsent : ¬ Refused s absent)
    (name : Text) (members : List (Text × Json)) :
    Refuses (RefusedIn members (name, .blank, s)) (read (memberUnlessBlank absent name members)) :=
  (hread _).congr (refused_memberUnlessBlank habsent)

theorem refuses_substitution (value : Json) :
    Refuses (Refused substitutionSchema value) (Substitution.ofJson value) := by
  refine refuses_object (fun members => ?_) _ value
  refine ((refuses_memberOr (refuses_expectText _) not_refused_emptyText "old" members).bind
    fun old _ => (refuses_memberOr (refuses_expectText _) not_refused_emptyText "new" members).bind
    fun new _ => .pure _).congr ?_
  simp

theorem refuses_options (value : Json) :
    Refuses (Refused optionsSchema value) (FetchOptions.ofJson value) := by
  refine refuses_object (fun members => ?_) _ value
  have hflag : ¬ Refused .flag (.bool false) := by
    simp [refused_leaf, Unlike, Schema.declared, Declared.admits]
  have hlisted := refuses_memberUnlessBlank (refuses_items refuses_substitution
    "options.path_substitutions") not_refused_emptyList "path_substitutions" members
  rw [← bind_assoc]
  refine (hlisted.bind fun substitutions _ =>
    (refuses_memberOr (refuses_expectFlag _) hflag "overwrite" members).bind fun overwrite _ =>
    (refuses_memberUnlessBlank (refuses_expectTexts _) not_refused_emptyList
      "arnless_resource_types" members).bind fun types _ => .pure _).congr ?_
  simp

theorem refuses_backend (value : Json) :
    Refuses (Refused backendSchema value) (Backend.ofJson value) := by
  refine refuses_object (fun members => ?_) _ value
  have htext (field name : Text) : Refuses (RefusedIn members (name, .blank, .text))
      (expectText field (memberUnlessBlank (.str []) name members)) :=
    refuses_memberUnlessBlank (refuses_expectText field) not_refused_emptyText name members
  refine ((refuses_memberOr (refuses_expectText _) not_refused_emptyText "bucket" members).bind
    fun bucket _ => (refuses_memberUnlessBlank (refuses_expectTexts _) not_refused_emptyList "keys"
      members).bind fun keys _ => (htext _ "region").bind fun region _ =>
    (htext _ "role_arn").bind fun roleArn _ => (htext _ "external_id").bind fun externalId _ =>
    (htext _ "session_name").bind fun sessionName _ => .pure _).congr ?_
  simp

-- Options that are null are not read, and absent ones are the standard ones.
theorem refuses_optionsOf (members : List (Text × Json)) :
    Refuses (RefusedIn members ("options", .null, optionsSchema)) (optionsOf members) := by
  have hstandard : ¬ Refused optionsSchema FetchOptions.standard.toJson := by
    intro h
    have haccepted : FetchOptions.ofJson FetchOptions.standard.toJson = .ok .standard := rfl
    obtain ⟨field, declared, found, hrejected, -⟩ := (refuses_options _).rejected h
    cases haccepted.symm.trans hrejected
  rw [optionsOf, memberOr]
  cases hmember : Entries.get? ("options" : Text) members with
  | none =>
    refine ((refuses_options FetchOptions.standard.toJson).map some).congr ?_
    simp [RefusedIn, hmember, hstandard]
  | some value =>
    cases value with
    | null => exact (Refuses.pure none).congr (by simp [RefusedIn, hmember, Read, Overlooked.covers])
    | _ =>
      refine ((refuses_options _).map some).congr ?_
      simp [RefusedIn, hmember, Read, Overlooked.covers]

/-- **Reading a document is refused if and only if a value that is read is not of its declared type**,
and gives a configuration otherwise. -/
theorem refuses_config (value : Json) : Refuses (Refused schema value) (ofJson value) := by
  refine refuses_object (fun members => ?_) _ value
  have hdestination := refuses_memberUnlessBlank (refuses_expectText "destination")
    not_refused_emptyText "destination" members
  refine ((refuses_optionsOf members).bind fun options _ =>
    (refuses_expectList (s := backendSchema) "s3"
      (memberUnlessBlank (.arr []) "s3" members)).bind (q := RefusedIn members
        ("destination", .blank, .text) ∨ ∃ items, memberUnlessBlank (.arr []) "s3" members =
          .arr items ∧ ∃ item ∈ items, Refused backendSchema item) fun listed hlisted =>
    hdestination.bind fun destination _ => ?_).congr ?_
  · -- The type of the list was looked at before the destination, and its items come after it.
    have hitems := (Refuses.mapM refuses_backend listed).bind fun backends _ =>
      .pure (⟨destination, options, backends⟩ : Config)
    refine hitems.congr ?_
    simp [expectList_ok hlisted]
  · have hbackends : Refused (.list backendSchema) (memberUnlessBlank (.arr []) "s3" members) ↔
        RefusedIn members ("s3", .blank, .list backendSchema) :=
      refused_memberUnlessBlank not_refused_emptyList
    rw [refused_list] at hbackends
    simp only [List.mem_cons, List.not_mem_nil, or_false, exists_eq_or_imp, exists_eq_left,
      ← hbackends, or_assoc, or_comm (a := RefusedIn members ("destination", .blank, .text))]

end Readers

/-! ## 4. What is refused -/

section Documents

variable {overlooked : Overlooked} {s : Schema} {value : Json}

-- Null is of no declared type.
theorem unlike_iff : Unlike s value ↔ WronglyTyped s value ∨ value = .null := by
  by_cases hnull : value = .null
  · subst hnull
    simp only [or_true, iff_true]
    cases s <;> rfl
  · simp [WronglyTyped, hnull]

theorem refused_iff : Refused s value ↔
    Occurs Read WronglyTyped s value ∨ Occurs Read (fun _ found => found = .null) s value := by
  rw [← occurs_or]
  exact ⟨fun h => h.mono fun _ _ => unlike_iff.mp, fun h => h.mono fun _ _ => unlike_iff.mpr⟩

/-- **Reading a document ends with an error about the configuration if and only if a wrongly typed
value is read at some declared place, or a null is.** The error names a field and something of another
type that was found there. In all other cases a configuration is read; a wrong type without content
goes unnoticed where the field counts as absent. -/
theorem rejected_iff (value : Json) :
    (Rejected (ofJson value) ↔ Occurs Read WronglyTyped schema value ∨
      Occurs Read (fun _ found => found = .null) schema value) ∧
    (¬ Rejected (ofJson value) → ∃ config, ofJson value = .ok config) ∧
    ∀ fault, ofJson value = .error fault →
      Rejected (ofJson value) ∧ ∃ field, fault.toError.topic = .configuration (some field) := by
  have hrefuses := refuses_config value
  have hrejected : Rejected (ofJson value) ↔ Refused schema value :=
    ⟨fun ⟨_, _, _, hfault, _⟩ => hrefuses.of_error hfault, hrefuses.rejected⟩
  refine ⟨hrejected.trans refused_iff, fun h => hrefuses.accepted (mt hrejected.mpr h), ?_⟩
  intro fault hfault
  have hread : Rejected (ofJson value) := hrefuses.rejected (hrefuses.of_error hfault)
  refine ⟨hread, ?_⟩
  obtain ⟨field, declared, found, hmistyped, -⟩ := hread
  obtain rfl : fault = .mistyped field declared found :=
    Except.error.inj (hfault.symm.trans hmistyped)
  exact ⟨field, rfl⟩

/-- A zero in the place of the destination is wrongly typed, and goes unnoticed. -/
theorem unrejected_zero :
    Occurs Present WronglyTyped schema (.obj [("destination", .int 0), ("s3", .arr [])]) ∧
    ofJson (.obj [("destination", .int 0), ("s3", .arr [])]) = .ok ⟨[], some .standard, []⟩ := by
  refine ⟨?_, rfl⟩
  have hfield : (("destination" : Text), Overlooked.blank, Schema.text) ∈ [
      (("options" : Text), Overlooked.null, optionsSchema),
      ("s3", .blank, .list backendSchema), ("destination", .blank, .text)] := by simp
  exact .member hfield rfl trivial (.here ⟨nofun, rfl⟩)

end Documents

end StateOwnership.Config
