import Mathlib.Data.List.Basic
import Mathlib.Tactic.Common
import StateOwnership.Proofs.Config.Typing

/-!
# Configurations written in full

A document may leave fields of a configuration out, hold blanks in them, and hold members that are
not read. **Among the documents that are read as one configuration exactly one is written in full, and
it is what is written of the configuration**: nothing of a configuration is lost when it is written
and read back.
-/

namespace StateOwnership.Config

/-! ## 1. Documents in full -/

mutual

/-- A value is in full: it is of its declared type, and an object has the declared fields in their
order and no other members. Null stands only where it says that something is not set. -/
def InFull : Schema → Json → Prop
  | .text, .str _ => True
  | .flag, .bool _ => True
  | .list item, .arr items => ∀ value ∈ items, InFull item value
  | .object fields, .obj members => MembersInFull fields members
  | _, _ => False

/-- Members are the declared fields in their order, each in full. -/
def MembersInFull : List (Text × Overlooked × Schema) → List (Text × Json) → Prop
  | [], [] => True
  | (name, overlooked, schema) :: fields, (other, value) :: members =>
    other = name ∧ (InFull schema value ∨ overlooked = .null ∧ value = .null) ∧
      MembersInFull fields members
  | _, _ => False

end

/-- What a configuration is declared to be, with the fields in the order of a document in full. -/
def layout : Schema :=
  .object [("destination", .blank, .text), ("options", .null, optionsSchema),
    ("s3", .blank, .list backendSchema)]

section InFull

variable {value : Json} {s : Schema} {members : List (Text × Json)} {name : Text}
  {overlooked : Overlooked} {fields : List (Text × Overlooked × Schema)}

theorem inFull_text : InFull .text value ↔ ∃ t, value = .str t := by
  cases value <;> simp [InFull]

theorem inFull_flag : InFull .flag value ↔ ∃ b, value = .bool b := by
  cases value <;> simp [InFull]

theorem inFull_object :
    InFull (.object fields) value ↔
      ∃ members, value = .obj members ∧ MembersInFull fields members := by
  cases value <;> simp [InFull]

theorem membersInFull_nil : MembersInFull [] members ↔ members = [] := by
  cases members <;> simp [MembersInFull]

theorem membersInFull_cons : MembersInFull ((name, overlooked, s) :: fields) members ↔
    ∃ value rest, members = (name, value) :: rest ∧
      (InFull s value ∨ overlooked = .null ∧ value = .null) ∧ MembersInFull fields rest := by
  cases members with
  | nil => simp [MembersInFull]
  | cons member rest =>
    obtain ⟨other, value⟩ := member
    rw [MembersInFull]
    constructor
    · rintro ⟨rfl, hvalue, hrest⟩
      exact ⟨value, rest, rfl, hvalue, hrest⟩
    · rintro ⟨_, _, h, hvalue, hrest⟩
      obtain ⟨hmember, rfl⟩ := List.cons.inj h
      obtain ⟨rfl, rfl⟩ := Prod.mk.inj hmember
      exact ⟨rfl, hvalue, hrest⟩

-- A list is in full if it is written from something, as its items are.
theorem inFull_list {α : Type} {write : α → Json}
    (hitem : ∀ item, InFull s item ↔ ∃ a, item = write a) :
    InFull (.list s) value ↔ ∃ written : List α, value = .arr (written.map write) := by
  cases value with
  | arr items =>
    simp only [InFull, Json.arr.injEq, hitem]
    induction items with
    | nil => exact iff_of_true (by simp) ⟨[], rfl⟩
    | cons item rest ih =>
      rw [List.forall_mem_cons, ih]
      constructor
      · rintro ⟨⟨a, rfl⟩, written, rfl⟩
        exact ⟨a :: written, rfl⟩
      · rintro ⟨_ | ⟨a, written⟩, h⟩
        · cases h
        · obtain ⟨rfl, rfl⟩ := List.cons.inj h
          exact ⟨⟨a, rfl⟩, written, rfl⟩
  | _ => simp [InFull]

theorem inFull_texts : InFull (.list .text) value ↔ ∃ ts, value = Json.ofTextList ts :=
  inFull_list fun _ => inFull_text

theorem inFull_substitution :
    InFull substitutionSchema value ↔ ∃ s : Substitution, value = s.toJson := by
  simp only [substitutionSchema, inFull_object, membersInFull_cons, membersInFull_nil, inFull_text,
    reduceCtorEq, false_and, or_false]
  constructor
  · rintro ⟨_, rfl, _, _, rfl, ⟨old, rfl⟩, _, _, rfl, ⟨new, rfl⟩, rfl⟩
    exact ⟨⟨old, new⟩, rfl⟩
  · rintro ⟨s, rfl⟩
    exact ⟨_, rfl, _, _, rfl, ⟨s.old, rfl⟩, _, _, rfl, ⟨s.new, rfl⟩, rfl⟩

theorem inFull_options :
    InFull optionsSchema value ↔ ∃ options : FetchOptions, value = options.toJson := by
  simp only [optionsSchema, inFull_object, membersInFull_cons, membersInFull_nil,
    inFull_list fun _ => inFull_substitution, inFull_flag, inFull_texts, reduceCtorEq, false_and,
    or_false]
  constructor
  · rintro ⟨_, rfl, _, _, rfl, ⟨substitutions, rfl⟩, _, _, rfl, ⟨overwrite, rfl⟩, _, _, rfl,
      ⟨types, rfl⟩, rfl⟩
    exact ⟨⟨substitutions, overwrite, types⟩, rfl⟩
  · rintro ⟨options, rfl⟩
    exact ⟨_, rfl, _, _, rfl, ⟨options.substitutions, rfl⟩, _, _, rfl, ⟨options.overwrite, rfl⟩, _,
      _, rfl, ⟨options.arnlessTypes, rfl⟩, rfl⟩

theorem inFull_backend :
    InFull backendSchema value ↔ ∃ backend : Backend, value = backend.toJson := by
  simp only [backendSchema, inFull_object, membersInFull_cons, membersInFull_nil, inFull_text,
    inFull_texts, reduceCtorEq, false_and, or_false]
  constructor
  · rintro ⟨_, rfl, _, _, rfl, ⟨bucket, rfl⟩, _, _, rfl, ⟨keys, rfl⟩, _, _, rfl, ⟨region, rfl⟩, _,
      _, rfl, ⟨roleArn, rfl⟩, _, _, rfl, ⟨externalId, rfl⟩, _, _, rfl, ⟨sessionName, rfl⟩, rfl⟩
    exact ⟨⟨bucket, keys, region, roleArn, externalId, sessionName⟩, rfl⟩
  · rintro ⟨backend, rfl⟩
    exact ⟨_, rfl, _, _, rfl, ⟨backend.bucket, rfl⟩, _, _, rfl, ⟨backend.keys, rfl⟩, _, _, rfl,
      ⟨backend.region, rfl⟩, _, _, rfl, ⟨backend.roleArn, rfl⟩, _, _, rfl,
      ⟨backend.externalId, rfl⟩, _, _, rfl, ⟨backend.sessionName, rfl⟩, rfl⟩

/-- **A document is in full if and only if it is what is written of a configuration.** -/
theorem inFull_layout : InFull layout value ↔ ∃ config : Config, value = config.toJson := by
  simp only [layout, inFull_object, membersInFull_cons, membersInFull_nil, inFull_text,
    inFull_options, inFull_list fun _ => inFull_backend, reduceCtorEq, false_and, or_false,
    true_and]
  constructor
  · rintro ⟨_, rfl, _, _, rfl, ⟨destination, rfl⟩, _, _, rfl, hoptions, _, _, rfl, ⟨backends, rfl⟩,
      rfl⟩
    rcases hoptions with ⟨options, rfl⟩ | rfl
    · exact ⟨⟨destination, some options, backends⟩, rfl⟩
    · exact ⟨⟨destination, none, backends⟩, rfl⟩
  · rintro ⟨⟨destination, options, backends⟩, rfl⟩
    refine ⟨_, rfl, _, _, rfl, ⟨destination, rfl⟩, _, _, rfl, ?_, _, _, rfl, ⟨backends, rfl⟩, rfl⟩
    cases options with
    | none => exact .inr rfl
    | some options => exact .inl ⟨options, rfl⟩

end InFull

/-! ## 2. Reading what is written -/

section Written

variable {members : List (Text × Json)} {name : Text}

-- A text is read as it is, also where an empty one counts as absent.
theorem expectText_kept {t : Text} (field : Text) (h : Entries.get? name members = some (.str t)) :
    expectText field (memberUnlessBlank (.str []) name members) = .ok t := by
  rw [memberUnlessBlank, h]
  cases t <;> rfl

theorem expectText_present {t : Text} (field : Text)
    (h : Entries.get? name members = some (.str t)) :
    expectText field (memberOr (.str []) name members) = .ok t := by
  rw [memberOr, h]
  rfl

theorem expectFlag_present {b : Bool} (field : Text)
    (h : Entries.get? name members = some (.bool b)) :
    expectFlag field (memberOr (.bool false) name members) = .ok b := by
  rw [memberOr, h]
  rfl

theorem expectList_kept {items : List Json} (field : Text)
    (h : Entries.get? name members = some (.arr items)) :
    expectList field (memberUnlessBlank (.arr []) name members) = .ok items := by
  rw [memberUnlessBlank, h]
  cases items <;> rfl

theorem ok_bind {α β : Type} {result : Except Fault α} {a : α} (h : result = .ok a)
    (next : α → Except Fault β) : (result >>= next) = next a := by
  rw [h]
  rfl

theorem mapM_map_write {α : Type} {read : Json → Except Fault α} {write : α → Json}
    (h : ∀ a, read (write a) = .ok a) (written : List α) :
    (written.map write).mapM read = .ok written := by
  induction written with
  | nil => rfl
  | cons a rest ih =>
    rw [List.map_cons, List.mapM_cons, ok_bind (h a), ok_bind ih]
    rfl

theorem expectTexts_kept {ts : List Text} (field : Text)
    (h : Entries.get? name members = some (Json.ofTextList ts)) :
    expectTexts field (memberUnlessBlank (.arr []) name members) = .ok ts := by
  have hread : ∀ t, expectText field (Json.str t) = .ok t := fun _ => rfl
  exact (ok_bind (expectList_kept field h) _).trans (mapM_map_write hread ts)

end Written

theorem substitution_ofJson_toJson (s : Substitution) : Substitution.ofJson s.toJson = .ok s := rfl

theorem options_ofJson_toJson (options : FetchOptions) :
    FetchOptions.ofJson options.toJson = .ok options := by
  have hobject : expectObject "options" options.toJson = .ok _ := rfl
  rw [FetchOptions.ofJson, ok_bind hobject, ok_bind (expectList_kept _ rfl),
    ok_bind (mapM_map_write substitution_ofJson_toJson _), ok_bind (expectFlag_present _ rfl),
    ok_bind (expectTexts_kept _ rfl)]
  rfl

theorem backend_ofJson_toJson (backend : Backend) :
    Backend.ofJson backend.toJson = .ok backend := by
  have hobject : expectObject "s3" backend.toJson = .ok _ := rfl
  rw [Backend.ofJson, ok_bind hobject, ok_bind (expectText_present _ rfl),
    ok_bind (expectTexts_kept _ rfl), ok_bind (expectText_kept _ rfl),
    ok_bind (expectText_kept _ rfl), ok_bind (expectText_kept _ rfl),
    ok_bind (expectText_kept _ rfl)]
  rfl

theorem optionsOf_written {members : List (Text × Json)} {options : Option FetchOptions}
    (h : Entries.get? ("options" : Text) members = some (match options with
      | none => Json.null
      | some options => options.toJson)) : optionsOf members = .ok options := by
  rw [optionsOf, memberOr, h]
  cases options with
  | none => rfl
  | some options => exact congrArg (Except.map some) (options_ofJson_toJson options)

theorem ofJson_toJson (config : Config) : ofJson config.toJson = .ok config := by
  have hobject : expectObject "<root>" config.toJson = .ok _ := rfl
  rw [ofJson, ok_bind hobject, ok_bind (optionsOf_written rfl), ok_bind (expectList_kept _ rfl),
    ok_bind (expectText_kept _ rfl), ok_bind (mapM_map_write backend_ofJson_toJson _)]
  rfl

/-! ## 3. The document in full -/

/-- **A configuration that is written is read back as it was, and what is written of it is the only
document in full among those that are read as it.** -/
theorem toJson_normal :
    (∀ config : Config, ofJson config.toJson = .ok config) ∧
    ∀ (document : Json) (config : Config), ofJson document = .ok config →
      ofJson config.toJson = ofJson document ∧
      ∀ other, ofJson other = ofJson document → (InFull layout other ↔ other = config.toJson) := by
  refine ⟨ofJson_toJson, fun document config hread => ?_⟩
  refine ⟨(ofJson_toJson config).trans hread.symm, fun other hother => ?_⟩
  rw [inFull_layout]
  constructor
  · rintro ⟨written, rfl⟩
    rw [ofJson_toJson, hread] at hother
    rw [Except.ok.inj hother]
  · rintro rfl
    exact ⟨config, rfl⟩

/-- A document without a destination, with options that are not set, and with members in another order
and one that is not read, is not in full; what is written of its configuration is. -/
theorem toJson_normal_of_unset :
    let document : Json := .obj [("s3", .arr [.obj [("keys", .null), ("more", .int 1),
      ("bucket", .str "b")]]), ("options", .null)]
    let config : Config := ⟨"", none, [⟨"b", [], "", "", "", ""⟩]⟩
    ofJson document = .ok config ∧ ofJson config.toJson = ofJson document ∧
      InFull layout config.toJson ∧ ¬ InFull layout document := by
  intro document config
  have hread : ofJson document = .ok config := rfl
  obtain ⟨hback, hnormal⟩ := toJson_normal.2 document config hread
  have hother : document ≠ config.toJson := by decide
  exact ⟨hread, hback, (hnormal _ hback).mpr rfl, fun hfull => hother ((hnormal _ rfl).mp hfull)⟩

end StateOwnership.Config
