import StateOwnership.State.Decode

/-!
# Numbers that cannot be read

The key of a resource may end in a number, which is read as soon as it looks like one. **A document
fails at a number exactly if it is one of version 3 and the first resource that cannot be read has a
number of digits that spell none.** Nothing else in a document of either version can fail so.
-/

namespace StateOwnership

/-! ## 1. Numerals -/

namespace Text

/-- A text of digits that spells no number: some digit has no decimal value, or there are too
many. -/
def Unreadable (t : Text) : Prop :=
  t.isNumeric = true ∧ ((∃ c ∈ t, c.decimalValue? = none) ∨ digitLimit < t.length)

instance (t : Text) : Decidable t.Unreadable :=
  inferInstanceAs (Decidable (_ ∧ _))

theorem length_decimalPrefix_le (t : Text) : (decimalPrefix t).length ≤ t.length := by
  induction t with
  | nil => exact Nat.le_refl _
  | cons c rest ih =>
    rw [decimalPrefix]
    split
    · exact Nat.succ_le_succ ih
    · exact Nat.zero_le _

-- The decimal digits that a text begins with are all of it if every code point is one.
theorem length_decimalPrefix_eq_iff (t : Text) :
    (decimalPrefix t).length = t.length ↔ ¬ ∃ c ∈ t, c.decimalValue? = none := by
  induction t with
  | nil => simp [decimalPrefix]
  | cons c rest ih =>
    rw [decimalPrefix]
    cases hvalue : c.decimalValue? with
    | none => simp [hvalue]
    | some d =>
      rw [List.length_cons, List.length_cons, Nat.succ_inj, ih]
      simp [hvalue]

-- Reading a text of digits as a number fails exactly if it is unreadable.
theorem readNumeral_error_iff {t : Text} (hdigits : t.isNumeric = true) :
    (∃ fault, readNumeral t = .error fault) ↔ t.Unreadable := by
  have hne : t ≠ [] := by
    rintro rfl
    simp [isNumeric] at hdigits
  have hle := length_decimalPrefix_le t
  have heq := length_decimalPrefix_eq_iff t
  simp only [readNumeral, Unreadable, hdigits, true_and]
  by_cases hall : (decimalPrefix t).length = t.length
  · by_cases hmany : digitLimit < t.length
    · simp [hall, hmany]
    · simp [hall, hmany, hne, heq.mp hall]
  · have hother := Classical.not_not.mp fun hnone => hall (heq.mpr hnone)
    simp only [hother, true_or, iff_true]
    split
    · exact ⟨_, rfl⟩
    · rw [if_neg fun h => hall h.1]
      exact ⟨_, rfl⟩

end Text

-- A value is at most one natural number.
theorem Json.isNat_unique {value : Json} {n m : Nat} (hn : value.isNat n = true)
    (hm : value.isNat m = true) : n = m := by
  cases value with
  | int i =>
    simp only [isNat, decide_eq_true_eq] at hn hm
    omega
  | float x =>
    cases x with
    | finite negative coefficient exponent =>
      simp only [isNat, Binary64.isNat, Bool.and_eq_true, decide_eq_true_eq] at hn hm
      exact Nat.eq_of_mul_eq_mul_right (Nat.two_pow_pos _) (hn.2.symm.trans hm.2)
    | _ => simp [isNat, Binary64.isNat] at hn
  | _ => simp [isNat] at hn

namespace State

/-! ## 2. Failing at a number -/

def FailsAtNumber {α : Type} (result : Except Fault α) : Prop :=
  ∃ fault, result = .error (.index fault)

/-- Reading items in order comes to one with a property before it fails. -/
def ComesTo {α β : Type} (read : α → Except Fault β) (P : α → Prop) : List α → Prop
  | [] => False
  | item :: rest => P item ∨ (read item).toBool = true ∧ ComesTo read P rest

instance decidableComesTo {α β : Type} (read : α → Except Fault β) (P : α → Prop)
    [DecidablePred P] : (items : List α) → Decidable (ComesTo read P items)
  | [] => inferInstanceAs (Decidable False)
  | item :: rest =>
    have := decidableComesTo read P rest
    inferInstanceAs (Decidable (P item ∨ (read item).toBool = true ∧ ComesTo read P rest))

section Reading

variable {α β : Type}

@[simp] theorem failsAtNumber_ok (a : α) : ¬ FailsAtNumber (.ok a) := by
  simp [FailsAtNumber]

@[simp] theorem failsAtNumber_pure (a : α) : ¬ FailsAtNumber (pure a) :=
  failsAtNumber_ok a

@[simp] theorem failsAtNumber_error (fault : Fault) :
    FailsAtNumber (.error fault : Except Fault α) ↔ ∃ numeral, fault = .index numeral := by
  simp [FailsAtNumber]

-- A sequence fails at a number if its first part does, or its second part after the first.
theorem failsAtNumber_bind {result : Except Fault α} {next : α → Except Fault β} :
    FailsAtNumber (result >>= next) ↔
      FailsAtNumber result ∨ ∃ a, result = .ok a ∧ FailsAtNumber (next a) := by
  cases result with
  | error fault =>
    have hbind : (Except.error fault >>= next) = .error fault := rfl
    simp [hbind]
  | ok a =>
    have hbind : (Except.ok a >>= next) = next a := rfl
    simp [hbind]

@[simp] theorem failsAtNumber_map {f : α → β} {result : Except Fault α} :
    FailsAtNumber (f <$> result) ↔ FailsAtNumber result := by
  cases result with
  | error fault =>
    have hmap : f <$> (.error fault : Except Fault α) = .error fault := rfl
    simp [hmap]
  | ok a => exact iff_of_false (failsAtNumber_ok _) (failsAtNumber_ok _)

@[simp] theorem failsAtNumber_listOf (field : Text) (value : Json) :
    ¬ FailsAtNumber (listOf field value) := by
  cases value <;> simp [listOf]

@[simp] theorem failsAtNumber_membersOf (field : Text) (value : Json) :
    ¬ FailsAtNumber (membersOf field value) := by
  cases value <;> simp [membersOf]

@[simp] theorem failsAtNumber_textOf (field absent : Text) (value : Json) :
    ¬ FailsAtNumber (textOf field absent value) := by
  cases value <;> simp [textOf]

@[simp] theorem toOption_eq_some {ε : Type} {result : Except ε α} {a : α} :
    result.toOption = some a ↔ result = .ok a := by
  cases result <;> simp [Except.toOption]

-- Reading items in order fails at a number if it comes to an item that does.
theorem failsAtNumber_mapM {read : α → Except Fault β} {P : α → Prop}
    (h : ∀ item, FailsAtNumber (read item) ↔ P item) (items : List α) :
    FailsAtNumber (items.mapM read) ↔ ComesTo read P items := by
  induction items with
  | nil => simp [ComesTo]
  | cons item rest ih =>
    rw [List.mapM_cons, failsAtNumber_bind, h, ComesTo]
    refine or_congr Iff.rfl ?_
    cases read item with
    | error fault => simp [Except.toBool]
    | ok b => simp [← ih, Except.toBool]

theorem not_comesTo {read : α → Except Fault β} {items : List α} :
    ¬ ComesTo read (fun _ => False) items := by
  induction items with
  | nil => exact id
  | cons item rest ih => simp [ComesTo, ih]

-- Reading items none of which fails at a number does not do so.
theorem not_failsAtNumber_mapM {read : α → Except Fault β}
    (h : ∀ item, ¬ FailsAtNumber (read item)) (items : List α) :
    ¬ FailsAtNumber (items.mapM read) := by
  rw [failsAtNumber_mapM (P := fun _ => False) fun item => iff_false_intro (h item)]
  exact not_comesTo

end Reading

/-! ## 3. Version 4 -/

theorem Current.not_failsAtNumber_readInstance (value : Json) :
    ¬ FailsAtNumber (readInstance value) := by
  simp [readInstance]

theorem Current.not_failsAtNumber_readResource (value : Json) :
    ¬ FailsAtNumber (readResource value) := by
  simp [readResource, failsAtNumber_bind, not_failsAtNumber_mapM not_failsAtNumber_readInstance]

-- No document of version 4 fails at a number.
theorem Current.not_failsAtNumber_readModules (members : List (Text × Json)) :
    ¬ FailsAtNumber (readModules members) := by
  simp [readModules, failsAtNumber_bind, not_failsAtNumber_mapM not_failsAtNumber_readResource]

/-! ## 4. Version 3 -/

namespace Legacy

/-- The part of a resource key after the type and the name. -/
def numberPart? (key : Text) : Option Text :=
  (Text.splitOn 0x2E (if dataMark.isPrefixOf key then key.drop dataMark.length else key))[2]?

/-- A resource is an object under a key that ends in an unreadable number. -/
def UnreadableResource (entry : Text × Json) : Prop :=
  (membersOf "resources" entry.2).toBool = true ∧
    ∃ part ∈ numberPart? entry.1, part.Unreadable

instance : DecidablePred UnreadableResource := fun _ =>
  inferInstanceAs (Decidable (_ ∧ _))

/-- The resources that a module lists, if it can be read up to them. -/
def resourcesOf (value : Json) : Except Fault (List (Text × Json)) := do
  let members ← membersOf "modules[]" value
  let _ ← listOf "modules[].path" (member "path" members)
  let listed := member "resources" members
  membersOf "modules[].resources" (if listed.isBlank then .obj [] else listed)

/-- The first resource of a module that cannot be read has an unreadable number. -/
def UnreadableModule (value : Json) : Prop :=
  ∃ entries ∈ (resourcesOf value).toOption, ComesTo readResource UnreadableResource entries

instance : DecidablePred UnreadableModule := fun value =>
  inferInstanceAs (Decidable (∃ entries ∈ (resourcesOf value).toOption, _))

def UnreadableModules (members : List (Text × Json)) : Prop :=
  ∃ values ∈ (listOf "modules" (member "modules" members)).toOption,
    ComesTo readModule UnreadableModule values

instance : DecidablePred UnreadableModules := fun members =>
  inferInstanceAs (Decidable (∃ values ∈ (listOf "modules" (member "modules" members)).toOption, _))

theorem failsAtNumber_readIndex (parts : List Text) :
    FailsAtNumber (readIndex parts) ↔ ∃ part ∈ parts[2]?, part.Unreadable := by
  rcases parts with _ | ⟨type, _ | ⟨name, _ | ⟨part, rest⟩⟩⟩
  · simp [readIndex]
  · simp [readIndex]
  · simp [readIndex]
  · have hpart : (type :: name :: part :: rest)[2]? = some part := rfl
    rw [hpart]
    simp only [readIndex, Option.mem_def, Option.some.injEq, exists_eq_left']
    by_cases hdigits : part.isNumeric = true
    · rw [if_pos hdigits, ← Text.readNumeral_error_iff hdigits]
      cases Text.readNumeral part <;> simp
    · rw [if_neg hdigits]
      simp [Text.Unreadable, hdigits]

theorem failsAtNumber_readKey (key : Text) :
    FailsAtNumber (readKey key) ↔ ∃ part ∈ numberPart? key, part.Unreadable := by
  simp [readKey, failsAtNumber_readIndex, numberPart?]

theorem not_failsAtNumber_readInstance (field : Text) (index primary : Json) :
    ¬ FailsAtNumber (readInstance field index primary) := by
  cases primary <;> simp [readInstance]

theorem failsAtNumber_readResource (entry : Text × Json) :
    FailsAtNumber (readResource entry) ↔ UnreadableResource entry := by
  rw [readResource, failsAtNumber_bind, UnreadableResource, ← failsAtNumber_readKey]
  cases entry.2 <;>
    simp [membersOf, Except.toBool, failsAtNumber_bind, not_failsAtNumber_readInstance]

theorem failsAtNumber_readModule (value : Json) :
    FailsAtNumber (readModule value) ↔ UnreadableModule value := by
  simp only [readModule, failsAtNumber_bind, failsAtNumber_membersOf, failsAtNumber_listOf,
    false_or, failsAtNumber_mapM failsAtNumber_readResource, failsAtNumber_pure, and_false,
    exists_false, or_false, UnreadableModule, resourcesOf]
  cases membersOf "modules[]" value with
  | error fault => simp [bind, Except.bind]
  | ok members =>
    cases hpath : listOf "modules[].path" (member "path" members) with
    | error fault => simp [bind, Except.bind, hpath]
    | ok path => simp [bind, Except.bind, hpath]

theorem failsAtNumber_readModules (members : List (Text × Json)) :
    FailsAtNumber (readModules members) ↔ UnreadableModules members := by
  rw [readModules, failsAtNumber_bind, UnreadableModules]
  simp [failsAtNumber_mapM failsAtNumber_readModule]

end Legacy

/-! ## 5. Documents -/

/-- A document is one of version 3 and the first resource of it that cannot be read has an unreadable
number. -/
def UnreadableDocument : Json → Prop
  | .obj members => (member "version" members).isNat 3 = true ∧ Legacy.UnreadableModules members
  | _ => False

instance : DecidablePred UnreadableDocument
  | .obj members =>
    inferInstanceAs (Decidable ((member "version" members).isNat 3 = true ∧
      Legacy.UnreadableModules members))
  | .null | .bool _ | .int _ | .float _ | .str _ | .arr _ => inferInstanceAs (Decidable False)

-- Extracting descriptors from modules fails at no number.
theorem not_failsAtNumber_describe (allowed : List Text) (type address : Text)
    (attributes : Json) : ¬ FailsAtNumber (describe allowed type address attributes) := by
  have hmembers : ¬ FailsAtNumber (attributeMembers address attributes) := by
    unfold attributeMembers
    split
    · simp
    · split <;> simp
    · simp
  have hid (members : List (Text × Json)) : ¬ FailsAtNumber (idOf address members) := by
    unfold idOf
    split <;> simp
  have harn (members : List (Text × Json)) : ¬ FailsAtNumber (arnOf allowed type address members) := by
    unfold arnOf
    split <;> simp
  simp [describe, failsAtNumber_bind, hmembers, hid, harn]

theorem failsAtNumber_modulesOf (document : Json) :
    FailsAtNumber (modulesOf document) ↔ UnreadableDocument document := by
  cases document with
  | obj members =>
    simp only [modulesOf, UnreadableDocument]
    by_cases hcurrent : (member "version" members).isNat 4 = true
    · have hlegacy : (member "version" members).isNat 3 ≠ true :=
        fun h => absurd (Json.isNat_unique hcurrent h) (by decide)
      simp [hcurrent, hlegacy, Current.not_failsAtNumber_readModules]
    · by_cases hlegacy : (member "version" members).isNat 3 = true
      · simp [hcurrent, hlegacy, Legacy.failsAtNumber_readModules]
      · simp [hcurrent, hlegacy]
  | _ => simp [modulesOf, UnreadableDocument]

/-- **Decoding fails at a number exactly if the document is one of version 3 whose first unreadable
resource has an unreadable number.** -/
theorem failsAtNumber_decode (arnless : List Text) (document : Json) :
    FailsAtNumber (decode arnless document) ↔ UnreadableDocument document := by
  have hextract (modules : List Module) :
      ¬ FailsAtNumber (extract (arnlessTypes ++ arnless) modules) := by
    simp [extract, not_failsAtNumber_mapM fun c : Candidate =>
      not_failsAtNumber_describe (arnlessTypes ++ arnless) c.type c.address c.attributes]
  simp [decode, failsAtNumber_bind, hextract, failsAtNumber_modulesOf]

/-- Octets spell a document that fails at a number. -/
def UnreadableNumber (octets : Bytes) : Prop :=
  ∃ document ∈ (Json.ofBytes octets).toOption, UnreadableDocument document

instance : DecidablePred UnreadableNumber := fun octets =>
  inferInstanceAs (Decidable (∃ document ∈ (Json.ofBytes octets).toOption, _))

theorem failsAtNumber_decodeBytes (arnless : List Text) (octets : Bytes) :
    FailsAtNumber (decodeBytes arnless octets) ↔ UnreadableNumber octets := by
  rw [decodeBytes, UnreadableNumber]
  cases Json.ofBytes octets with
  | error fault => simp
  | ok document => simpa using failsAtNumber_decode arnless document

end State
end StateOwnership
