import StateOwnership.Proofs.Text.Decimals
import StateOwnership.State.Document

/-!
# Addresses of instances

An address leads through modules to a resource and may end in brackets that tell its instances
apart. Where a name ends and what stands between brackets can be told from left to right, though an
index key may hold quotes, brackets and dots: it ends where the address does. **Managed instances of
the same address have the same module, type, name and index key.**
-/

namespace StateOwnership

/-! ## 1. Names and numerals -/

namespace CodePoint

/-- A letter, a digit, an underscore or a hyphen. Beyond ASCII every code point counts as a
letter. -/
def isNameMark (c : CodePoint) : Bool :=
  (0x41 ≤ c.val && c.val ≤ 0x5A) || (0x61 ≤ c.val && c.val ≤ 0x7A) || c.isAsciiDigit || c = 0x5F ||
    c = 0x2D || 0x80 ≤ c.val

end CodePoint

namespace Text

/-- Marks of names, the first of which is neither a digit nor a hyphen. -/
def isIdentifier : Text → Bool
  | [] => false
  | c :: rest => c.isNameMark && !c.isAsciiDigit && c ≠ 0x2D && rest.all (·.isNameMark)

/-- Digits, and a minus sign in front of them or none. -/
def isNumeral : Text → Bool
  | [] => false
  | c :: rest => (c.isAsciiDigit || c = 0x2D && !rest.isEmpty) && rest.all (·.isAsciiDigit)

theorem isNameMark_of_isIdentifier {t : Text} (h : t.isIdentifier = true) :
    ∀ c ∈ t, c.isNameMark = true := by
  cases t with
  | nil => simp
  | cons c rest =>
    simp only [isIdentifier, Bool.and_eq_true, List.all_eq_true] at h
    exact List.forall_mem_cons.mpr ⟨h.1.1.1, h.2⟩

theorem isNumeral_cases {t : Text} (h : t.isNumeral = true) :
    t ≠ [] ∧ ∀ c ∈ t, c.isAsciiDigit = true ∨ c = 0x2D := by
  cases t with
  | nil => cases h
  | cons c rest =>
    simp only [isNumeral, Bool.and_eq_true, Bool.or_eq_true, List.all_eq_true,
      decide_eq_true_eq] at h
    refine ⟨List.cons_ne_nil _ _, List.forall_mem_cons.mpr ⟨h.1.imp_right (·.1), ?_⟩⟩
    exact fun d hd => .inl (h.2 d hd)

theorem isNumeral_ofInt (i : Int) : (ofInt i).isNumeral = true := by
  cases i with
  | ofNat n =>
    obtain ⟨c, rest, hdigits⟩ := List.exists_cons_of_ne_nil (ofNat_ne_nil n)
    have hall := isAsciiDigit_of_mem_ofNat (n := n)
    rw [hdigits, List.forall_mem_cons] at hall
    simpa [ofInt, hdigits, isNumeral, hall.1] using hall.2
  | negSucc n =>
    simpa [ofInt, isNumeral, ofNat_ne_nil] using isAsciiDigit_of_mem_ofNat (n := n + 1)

-- Two texts are the same up to where the same marks stop them.
theorem append_inj_of_stop {stop : CodePoint → Prop} {a b s t : Text} (ha : ∀ c ∈ a, ¬ stop c)
    (hb : ∀ c ∈ b, ¬ stop c) (hs : ∀ c ∈ s.head?, stop c) (ht : ∀ c ∈ t.head?, stop c)
    (h : a ++ s = b ++ t) : a = b ∧ s = t := by
  induction a generalizing b with
  | nil =>
    cases b with
    | nil => exact ⟨rfl, h⟩
    | cons d b =>
      rw [List.nil_append] at h
      exact absurd (hs d (h ▸ rfl)) (hb d List.mem_cons_self)
  | cons c a ih =>
    cases b with
    | nil =>
      rw [List.nil_append] at h
      exact absurd (ht c (h ▸ rfl)) (ha c List.mem_cons_self)
    | cons d b =>
      rw [List.forall_mem_cons] at ha hb
      obtain ⟨rfl, hrest⟩ := List.cons.inj h
      obtain ⟨rfl, hst⟩ := ih ha.2 hb.2 hrest
      exact ⟨rfl, hst⟩

end Text

namespace State

open Text

/-! ## 2. Brackets -/

/-- What stands in brackets behind a name, if anything does: a numeral, or a text between quotes. -/
inductive Bracket where
  | none
  | numeral (numeral : Text)
  | quoted (t : Text)

namespace Bracket

def text : Bracket → Text
  | none => []
  | numeral t => "[" ++ t ++ "]"
  | quoted t => "[\"" ++ t ++ "\"]"

/-- A numeral is one. -/
def Sound : Bracket → Prop
  | numeral t => t.isNumeral = true
  | _ => True

/-- A numeral is one, and a text between quotes holds no quote. -/
def Closed : Bracket → Prop
  | none => True
  | numeral t => t.isNumeral = true
  | quoted t => 0x22 ∉ t

instance : DecidablePred Closed
  | none => inferInstanceAs (Decidable True)
  | numeral t => inferInstanceAs (Decidable (t.isNumeral = true))
  | quoted t => inferInstanceAs (Decidable (0x22 ∉ t))

theorem text_numeral_append (t rest : Text) :
    (numeral t).text ++ rest = 0x5B :: (t ++ 0x5D :: rest) :=
  congrArg (List.cons 0x5B) (List.append_assoc t [0x5D] rest)

theorem text_quoted_append (t rest : Text) :
    (quoted t).text ++ rest = 0x5B :: 0x22 :: (t ++ 0x22 :: 0x5D :: rest) :=
  congrArg (fun others => 0x5B :: 0x22 :: others) (List.append_assoc t [0x22, 0x5D] rest)

-- A numeral cannot be taken for what begins with a quote.
theorem numeral_append_ne {t rest others : Text} (h : t.isNumeral = true) :
    t ++ rest ≠ 0x22 :: others := by
  obtain ⟨hne, hmarks⟩ := isNumeral_cases h
  obtain ⟨c, digits, rfl⟩ := List.exists_cons_of_ne_nil hne
  intro heq
  obtain ⟨rfl, -⟩ := List.cons.inj heq
  exact absurd (hmarks _ List.mem_cons_self) (by decide)

-- Brackets at the end of a text can be told from it, whatever is between quotes.
theorem text_inj {b c : Bracket} (hb : b.Sound) (hc : c.Sound) : b.text = c.text ↔ b = c := by
  refine ⟨fun h => ?_, fun h => h ▸ rfl⟩
  cases b with
  | none =>
    cases c with
    | none => rfl
    | numeral _ | quoted _ => cases h
  | numeral t =>
    cases c with
    | none => cases h
    | numeral u => exact congrArg numeral (List.append_cancel_right (List.cons.inj h).2)
    | quoted u => exact absurd (List.cons.inj h).2 (numeral_append_ne hb)
  | quoted t =>
    cases c with
    | none => cases h
    | numeral u => exact absurd (List.cons.inj h).2.symm (numeral_append_ne hc)
    | quoted u =>
      exact congrArg quoted (List.append_cancel_right (List.cons.inj (List.cons.inj h).2).2)

-- Brackets in front of a dot can be told from the text, if no quote is between quotes.
theorem text_append_inj {b c : Bracket} {s t : Text} (hb : b.Closed) (hc : c.Closed)
    (h : b.text ++ 0x2E :: s = c.text ++ 0x2E :: t) : b = c ∧ s = t := by
  have hdigits {t : Text} (ht : t.isNumeral = true) : ∀ c ∈ t, ¬ c = 0x5D := by
    rintro c hc rfl
    exact absurd ((isNumeral_cases ht).2 _ hc) (by decide)
  have hinside {t : Text} (ht : 0x22 ∉ t) : ∀ c ∈ t, ¬ c = 0x22 := fun c hc heq => ht (heq ▸ hc)
  cases b with
  | none =>
    cases c with
    | none => exact ⟨rfl, (List.cons.inj h).2⟩
    | numeral _ | quoted _ => exact absurd (List.cons.inj h).1 (by decide)
  | numeral u =>
    rw [text_numeral_append] at h
    cases c with
    | none => exact absurd (List.cons.inj h).1 (by decide)
    | numeral v =>
      rw [text_numeral_append] at h
      obtain ⟨rfl, hrest⟩ := append_inj_of_stop (hdigits hb) (hdigits hc) (by simp) (by simp)
        (List.cons.inj h).2
      exact ⟨rfl, (List.cons.inj (List.cons.inj hrest).2).2⟩
    | quoted v =>
      rw [text_quoted_append] at h
      exact absurd (List.cons.inj h).2 (numeral_append_ne hb)
  | quoted u =>
    rw [text_quoted_append] at h
    cases c with
    | none => exact absurd (List.cons.inj h).1 (by decide)
    | numeral v =>
      rw [text_numeral_append] at h
      exact absurd (List.cons.inj h).2.symm (numeral_append_ne hc)
    | quoted v =>
      rw [text_quoted_append] at h
      obtain ⟨rfl, hrest⟩ := append_inj_of_stop (hinside hb) (hinside hc) (by simp) (by simp)
        (List.cons.inj (List.cons.inj h).2).2
      exact ⟨rfl, (List.cons.inj (List.cons.inj (List.cons.inj hrest).2).2).2⟩

end Bracket

/-! ## 3. Steps into modules -/

/-- A step into a module: its name, and the brackets that tell its instances apart. -/
structure Step where
  name : Text
  bracket : Bracket

namespace Step

def text (step : Step) : Text :=
  "module." ++ step.name ++ step.bracket.text

/-- The name of a step is an identifier, and where its brackets end can be told. -/
def Sound (step : Step) : Prop :=
  step.name.isIdentifier = true ∧ step.bracket.Closed

instance : DecidablePred Sound := fun _ => inferInstanceAs (Decidable (_ ∧ _))

end Step

/-- The address of a module: steps joined by dots, none for the root module. -/
def IsModuleAddress (t : Text) : Prop :=
  ∃ steps : List Step, (∀ step ∈ steps, step.Sound) ∧ t = joinWith "." (steps.map Step.text)

/-- An index key: none, an integer or a text. -/
def IsIndexKey : Json → Prop
  | .null | .int _ | .str _ => True
  | _ => False

/-- A managed resource whose type and name are identifiers, the type another one than `module`. -/
structure Resource.Addressable (resource : Resource) : Prop where
  managed : resource.mode = managedMode
  type : resource.type.isIdentifier = true
  type_ne : resource.type ≠ "module"
  name : resource.name.isIdentifier = true

def bracketOf : Json → Bracket
  | .int i => .numeral (ofInt i)
  | .str t => .quoted t
  | _ => .none

section Addresses

variable {key other : Json} {steps others : List Step} {type type' name name' s t : Text}
  {b c : Bracket}

theorem indexSuffix_eq (h : IsIndexKey key) : indexSuffix key = (bracketOf key).text := by
  cases key with
  | null | int _ | str _ => rfl
  | _ => exact absurd h id

theorem sound_bracketOf (key : Json) : (bracketOf key).Sound := by
  cases key with
  | int i => exact isNumeral_ofInt i
  | _ => trivial

theorem bracketOf_inj (h : IsIndexKey key) (h' : IsIndexKey other) :
    bracketOf key = bracketOf other ↔ key = other := by
  cases key with
  | null | int _ | str _ =>
    cases other with
    | null | int _ | str _ => simp [bracketOf, ofInt_inj]
    | _ => exact absurd h' id
  | _ => exact absurd h id

/-- A name that stands in front of a text ends there. -/
def Ends (t : Text) : Prop :=
  ∀ c ∈ t.head?, c.isNameMark = false

theorem ends_nil : Ends [] := by
  simp [Ends]

theorem ends_dot (t : Text) : Ends (0x2E :: t) := by
  rintro c ⟨⟩
  rfl

theorem Ends.brackets (h : Ends t) (b : Bracket) : Ends (b.text ++ t) := by
  cases b with
  | none => exact h
  | numeral _ | quoted _ =>
    rintro c ⟨⟩
    rfl

theorem identifier_append_inj (htype : type.isIdentifier = true)
    (htype' : type'.isIdentifier = true)
    (hs : Ends s) (ht : Ends t) (h : type ++ s = type' ++ t) : type = type' ∧ s = t := by
  have hmarks {t : Text} (h : t.isIdentifier = true) : ∀ c ∈ t, ¬ c.isNameMark = false :=
    fun c hc hmark => by simp [isNameMark_of_isIdentifier h c hc] at hmark
  exact append_inj_of_stop (hmarks htype) (hmarks htype') hs ht h

/-- Steps, each with a dot behind it. -/
def leading (steps : List Step) : Text :=
  steps.flatMap fun step => step.text ++ "."

theorem leading_cons_append (step : Step) (rest : List Step) (t : Text) :
    leading (step :: rest) ++ t = ("module" : Text) ++
      0x2E :: (step.name ++ (step.bracket.text ++ 0x2E :: (leading rest ++ t))) := by
  have hmodule : ("module." : Text) = ("module" : Text) ++ [0x2E] := rfl
  have hdot : ("." : Text) = [0x2E] := rfl
  simp [leading, Step.text, hmodule, hdot]

-- There are steps as long as `module` stands in front of a dot.
theorem leading_append_inj (hsteps : ∀ step ∈ steps, step.Sound)
    (hothers : ∀ step ∈ others, step.Sound) (htype : type.isIdentifier = true)
    (htype' : type'.isIdentifier = true) (hne : type ≠ "module") (hne' : type' ≠ "module")
    (h : leading steps ++ (type ++ 0x2E :: s) = leading others ++ (type' ++ 0x2E :: t)) :
    steps = others ∧ type ++ 0x2E :: s = type' ++ 0x2E :: t := by
  have hmodule : ("module" : Text).isIdentifier = true := by decide
  induction steps generalizing others with
  | nil =>
    cases others with
    | nil => exact ⟨rfl, h⟩
    | cons step rest =>
      rw [leading_cons_append] at h
      exact absurd (identifier_append_inj htype hmodule (ends_dot _) (ends_dot _) h).1 hne
  | cons first rest ih =>
    rw [leading_cons_append] at h
    cases others with
    | nil =>
      exact absurd (identifier_append_inj hmodule htype' (ends_dot _) (ends_dot _) h).1.symm hne'
    | cons second more =>
      rw [leading_cons_append] at h
      rw [List.forall_mem_cons] at hsteps hothers
      obtain ⟨⟨hname, hclosed⟩, hrest⟩ := hsteps
      obtain ⟨⟨hname', hclosed'⟩, hmore⟩ := hothers
      obtain ⟨hnames, hbrackets⟩ := identifier_append_inj hname hname'
        ((ends_dot _).brackets _) ((ends_dot _).brackets _)
        (List.cons.inj (List.append_cancel_left h)).2
      obtain ⟨hsame, hbehind⟩ := Bracket.text_append_inj hclosed hclosed' hbrackets
      obtain ⟨rfl, hlast⟩ := ih hrest hmore hbehind
      obtain ⟨name, bracket⟩ := first
      obtain ⟨rfl⟩ : name = second.name := hnames
      obtain ⟨rfl⟩ : bracket = second.bracket := hsame
      exact ⟨rfl, hlast⟩

-- Type, name and brackets can be told from the text behind the steps.
theorem resource_inj (htype : type.isIdentifier = true) (htype' : type'.isIdentifier = true)
    (hname : name.isIdentifier = true) (hname' : name'.isIdentifier = true) (hb : b.Sound)
    (hc : c.Sound) (h : type ++ 0x2E :: (name ++ b.text) = type' ++ 0x2E :: (name' ++ c.text)) :
    type = type' ∧ name = name' ∧ b = c := by
  obtain ⟨hsame, hrest⟩ := identifier_append_inj htype htype' (ends_dot _) (ends_dot _) h
  have hend (b : Bracket) : Ends b.text := by
    simpa using ends_nil.brackets b
  obtain ⟨hnames, hbrackets⟩ :=
    identifier_append_inj hname hname' (hend b) (hend c) (List.cons.inj hrest).2
  exact ⟨hsame, hnames, (Bracket.text_inj hb hc).mp hbrackets⟩

theorem joinWith_append_dot {steps : List Step} (h : steps ≠ []) :
    joinWith "." (steps.map Step.text) ++ ("." : Text) = leading steps := by
  induction steps with
  | nil => exact absurd rfl h
  | cons first rest ih =>
    cases rest with
    | nil => simp [joinWith, leading]
    | cons second more =>
      have hjoined : joinWith "." ((first :: second :: more).map Step.text) =
          first.text ++ "." ++ joinWith "." ((second :: more).map Step.text) := by
        simp [joinWith, List.intercalate]
      rw [hjoined, List.append_assoc, ih (List.cons_ne_nil _ _)]
      rfl

-- An address leads through the steps to the resource.
theorem addressOf_eq {resource : Resource} (hmode : resource.mode = managedMode)
    (hkey : IsIndexKey key) (steps : List Step) :
    resource.addressOf (joinWith "." (steps.map Step.text)) key = leading steps ++
      (resource.type ++ 0x2E :: (resource.name ++ (bracketOf key).text)) := by
  have hdot : ("." : Text) = [0x2E] := rfl
  rw [Resource.addressOf, resourceAddress, hmode, indexSuffix_eq hkey]
  cases steps with
  | nil => simp [joinWith, leading, hdot]
  | cons first rest =>
    have hne : joinWith "." ((first :: rest).map Step.text) ≠ [] := by
      intro hnil
      have hlead := joinWith_append_dot (List.cons_ne_nil first rest)
      rw [hnil] at hlead
      simp [leading, Step.text, Text.ofString] at hlead
    simp only [if_true]
    rw [if_neg hne, ← joinWith_append_dot (List.cons_ne_nil first rest)]
    simp [hdot]

end Addresses

/-- **Managed instances have the same address only if they are in the same module and have the same
type, name and index key**, as long as module addresses are made of steps, types and names are
identifiers and index keys are integers or texts, or missing. -/
theorem addressOf_inj {module other : Text} {r s : Resource} {key key' : Json}
    (hmodule : IsModuleAddress module) (hother : IsModuleAddress other) (hr : r.Addressable)
    (hs : s.Addressable) (hkey : IsIndexKey key) (hkey' : IsIndexKey key') :
    r.addressOf module key = s.addressOf other key' ↔
      module = other ∧ r.type = s.type ∧ r.name = s.name ∧ key = key' := by
  constructor
  · obtain ⟨steps, hsteps, rfl⟩ := hmodule
    obtain ⟨others, hothers, rfl⟩ := hother
    rw [addressOf_eq hr.managed hkey, addressOf_eq hs.managed hkey']
    intro h
    obtain ⟨rfl, hbehind⟩ :=
      leading_append_inj hsteps hothers hr.type hs.type hr.type_ne hs.type_ne h
    obtain ⟨htype, hname, hbrackets⟩ := resource_inj hr.type hs.type hr.name hs.name
      (sound_bracketOf key) (sound_bracketOf key') hbehind
    exact ⟨rfl, htype, hname, (bracketOf_inj hkey hkey').mp hbrackets⟩
  · rintro ⟨rfl, htype, hname, rfl⟩
    simp only [Resource.addressOf, hr.managed, hs.managed, htype, hname]

/-- An index key with quotes, brackets and dots in it, below modules whose keys have brackets and
dots, gives another address than the empty key. -/
theorem addressOf_ne_of_quotes :
    let module : Text := "module.m[\"a.b]\"].module.k[-1]"
    let resource : Resource := ⟨managedMode, "t", "n", []⟩
    let key : Json := .str "\"].t.n[\""
    IsModuleAddress module ∧ resource.Addressable ∧ IsIndexKey key ∧
      resource.addressOf module key = "module.m[\"a.b]\"].module.k[-1].t.n[\"\"].t.n[\"\"]" ∧
      resource.addressOf module key ≠ resource.addressOf module (.str []) := by
  intro module resource key
  have hmodule : IsModuleAddress module :=
    ⟨[⟨"m", .quoted "a.b]"⟩, ⟨"k", .numeral "-1"⟩], by decide, by decide⟩
  have hresource : resource.Addressable := ⟨rfl, by decide, by decide, by decide⟩
  have hkey : IsIndexKey key := trivial
  have hempty : IsIndexKey (.str []) := trivial
  refine ⟨hmodule, hresource, hkey, by decide, fun heq => ?_⟩
  obtain ⟨-, -, -, hsame⟩ :=
    (addressOf_inj hmodule hmodule hresource hresource hkey hempty).mp heq
  exact absurd hsame (by decide)

end State
end StateOwnership
