import Mathlib.Tactic.Common
import Mathlib.Tactic.IntervalCases
import StateOwnership.Json.Printer
import StateOwnership.Proofs.Json.Scalars
import StateOwnership.Proofs.OrderedMap
import StateOwnership.Proofs.Text.Decimals
import StateOwnership.Proofs.Text.Utf8

/-!
# Reading what was written

The escapes of a text, the digits of an integer and the parts of a container are taken apart by the
reader where the printer has put them together. **A document that is written of a value is read as the
value**, with its members in the same order, whatever the indentation. The value must be one that
documents can tell: no text in it holds a surrogate, no object has two members of one name, containers
nest no deeper than they are read, and no number is a floating-point one. Integers are written
however many digits they have, but not read if they have too many.
-/

namespace StateOwnership

namespace CodePoint

theorem hexValue?_hexDigit {n : Nat} (h : n < 0x10) : (hexDigit n).hexValue? = some n := by
  interval_cases n <;> decide

theorem val_hexDigit_lt {n : Nat} (h : n < 0x10) : (hexDigit n).val < 0x80 := by
  interval_cases n <;> decide

end CodePoint

/-! ## 1. ASCII -/

namespace Text

def Ascii (t : Text) : Prop :=
  ∀ c ∈ t, c.val < 0x80

instance (t : Text) : Decidable (Ascii t) :=
  decidable_of_iff (t.all fun c => decide (c.val < 0x80)) (by simp [Ascii])

section Ascii

variable {t u : Text} {c : CodePoint}

theorem ascii_nil : Ascii [] := by simp [Ascii]

theorem ascii_cons : Ascii (c :: t) ↔ c.val < 0x80 ∧ Ascii t := List.forall_mem_cons

theorem ascii_append : Ascii (t ++ u) ↔ Ascii t ∧ Ascii u := List.forall_mem_append

theorem Ascii.isSurrogate_eq (h : Ascii t) : ∀ c ∈ t, c.isSurrogate = false := by
  intro c hc
  have hlt := h c hc
  rw [isSurrogate_eq_false]
  omega

theorem ascii_ofNat (n : Nat) : Ascii (ofNat n) := by
  intro c hc
  have hdigit := isAsciiDigit_of_mem_ofNat c hc
  simp only [CodePoint.isAsciiDigit, Bool.and_eq_true, decide_eq_true_eq] at hdigit
  omega

theorem ascii_ofInt (i : Int) : Ascii (ofInt i) := by
  cases i with
  | ofNat n => exact ascii_ofNat n
  | negSucc n => exact ascii_cons.mpr ⟨by decide, ascii_ofNat (n + 1)⟩

end Ascii

end Text

namespace Json

open Text (doubleQuote backslash)

/-! ## 2. Strings -/

section Strings

variable {opening rest : Text} {c : CodePoint}

theorem hexPadded_four (n : Nat) : Text.hexPadded 4 n =
    [CodePoint.hexDigit (n / 0x1000 % 0x10), CodePoint.hexDigit (n / 0x100 % 0x10),
      CodePoint.hexDigit (n / 0x10 % 0x10), CodePoint.hexDigit (n % 0x10)] := by
  simp only [Text.hexPadded, List.nil_append, List.cons_append, Nat.div_div_eq_div_mul]

theorem hexQuad?_hexDigits {n : Nat} (h : n < 0x10000) :
    hexQuad? (CodePoint.hexDigit (n / 0x1000 % 0x10)) (CodePoint.hexDigit (n / 0x100 % 0x10))
      (CodePoint.hexDigit (n / 0x10 % 0x10)) (CodePoint.hexDigit (n % 0x10)) =
      some (Text.codePointOf n) := by
  have hdigit (m : Nat) := CodePoint.hexValue?_hexDigit (Nat.mod_lt m (by decide : 0 < 0x10))
  simp only [hexQuad?, hdigit, Option.bind_eq_bind, Option.bind_some, Option.pure_def]
  congr 2
  omega

-- A unit that is no first half of a pair stands for itself.
theorem stringFrom_unit {n : Nat} (hn : n < 0x10000)
    (hhalf : (Text.codePointOf n).isHighSurrogate = false) (hrest : rest ≠ []) :
    stringFrom opening (escapeUnit n ++ rest) =
      prepend (Text.codePointOf n) (stringFrom opening rest) := by
  obtain ⟨next, after, rfl⟩ := List.exists_cons_of_ne_nil hrest
  have hunit : escapeUnit n = backslash :: unitEscape :: Text.hexPadded 4 n := rfl
  rw [hunit, hexPadded_four]
  simp only [List.cons_append, List.nil_append]
  rw [stringFrom, if_neg (by decide), if_pos rfl]
  simp only [↓reduceIte, hexQuad?_hexDigits hn, hhalf, Bool.false_and, Bool.false_eq_true]

-- The two halves of a pair stand for one code point.
theorem stringFrom_pair {high low : Nat} (hhigh : high < 0x10000) (hlow : low < 0x10000)
    (hfirst : (Text.codePointOf high).isHighSurrogate = true)
    (hsecond : (Text.codePointOf low).isLowSurrogate = true) (hrest : rest ≠ []) :
    stringFrom opening (escapeUnit high ++ escapeUnit low ++ rest) =
      prepend (CodePoint.joinSurrogates (Text.codePointOf high) (Text.codePointOf low))
        (stringFrom opening rest) := by
  obtain ⟨next, after, rfl⟩ := List.exists_cons_of_ne_nil hrest
  have hunit (n : Nat) : escapeUnit n = backslash :: unitEscape :: Text.hexPadded 4 n := rfl
  rw [hunit, hunit, hexPadded_four, hexPadded_four]
  simp only [List.cons_append, List.nil_append]
  rw [stringFrom, if_neg (by decide), if_pos rfl]
  simp only [↓reduceIte, hexQuad?_hexDigits hhigh, hexQuad?_hexDigits hlow, hfirst, hsecond,
    Bool.true_and, decide_true]

-- A letter behind a backslash is read as what it stands for.
theorem stringFrom_letter {e : CodePoint} (he : e ≠ unitEscape) (hc : escaped? e = some c) :
    stringFrom opening (backslash :: e :: rest) = prepend c (stringFrom opening rest) := by
  rw [stringFrom.eq_def]
  dsimp only
  rw [if_neg (by decide), if_pos rfl, if_neg he, hc]

theorem stringFrom_plain (hquote : c ≠ doubleQuote) (hslash : c ≠ backslash) (hc : 0x20 ≤ c.val) :
    stringFrom opening (c :: rest) = prepend c (stringFrom opening rest) := by
  rw [stringFrom.eq_def]
  dsimp only
  rw [if_neg hquote, if_neg hslash, if_neg (by omega)]

-- The escape of a code point is read as the code point, whichever form it has.
theorem stringFrom_escape (hc : c.isSurrogate = false) (hrest : rest ≠ []) :
    stringFrom opening (escapeCodePoint c ++ rest) = prepend c (stringFrom opening rest) := by
  rw [Text.isSurrogate_eq_false] at hc
  unfold escapeCodePoint
  split
  · rename_i hspecial
    simp only [Bool.or_eq_true, decide_eq_true_eq] at hspecial
    rcases hspecial with rfl | rfl <;> exact stringFrom_letter (by decide) (by decide)
  rename_i hspecial
  simp only [Bool.or_eq_true, decide_eq_true_eq, not_or] at hspecial
  iterate 5
    split
    · rename_i hletter
      subst hletter
      exact stringFrom_letter (by decide) (by decide)
  split
  · rename_i hprintable
    simp only [Bool.and_eq_true, decide_eq_true_eq] at hprintable
    exact stringFrom_plain hspecial.1 hspecial.2 hprintable.1
  split
  · rename_i hsmall
    have hunit : Text.codePointOf c.val = c := Text.codePointOf_eq rfl
    rw [stringFrom_unit hsmall _ hrest, hunit]
    rw [hunit, CodePoint.isHighSurrogate]
    simp only [Bool.and_eq_false_iff, decide_eq_false_iff_not]
    omega
  · rename_i hlarge
    have hlt := c.isLt
    have hhigh := Text.codePointOf_val (n := 0xD800 + (c.val - 0x10000) / 0x400) (by omega)
    have hlow := Text.codePointOf_val (n := 0xDC00 + (c.val - 0x10000) % 0x400) (by omega)
    rw [stringFrom_pair (by omega) (by omega) _ _ hrest]
    · have hjoined : 0x10000 + (0xD800 + (c.val - 0x10000) / 0x400 - 0xD800) * 0x400 +
          (0xDC00 + (c.val - 0x10000) % 0x400 - 0xDC00) = c.val := by omega
      rw [CodePoint.joinSurrogates, hhigh, hlow, hjoined, Fin.ofNat_val_eq_self]
    · rw [CodePoint.isHighSurrogate, hhigh]
      simp only [Bool.and_eq_true, decide_eq_true_eq]
      omega
    · rw [CodePoint.isLowSurrogate, hlow]
      simp only [Bool.and_eq_true, decide_eq_true_eq]
      omega

/-- **What is written of a text without surrogates is read as that text.** -/
theorem stringFrom_renderString {t : Text} (h : ∀ c ∈ t, c.isSurrogate = false)
    (opening rest : Text) :
    stringFrom opening (t.flatMap escapeCodePoint ++ doubleQuote :: rest) = .ok (t, rest) := by
  induction t with
  | nil =>
    rw [List.flatMap_nil, List.nil_append, stringFrom.eq_def]
    exact if_pos rfl
  | cons c t ih =>
    rw [List.forall_mem_cons] at h
    rw [List.flatMap_cons, List.append_assoc, stringFrom_escape h.1 (by simp), ih h.2]
    rfl

end Strings

/-! ## 3. Integers -/

/-- What may follow a value in a document that is written: nothing, the next part of a container, or
its end. -/
def Ends (rest : Text) : Prop :=
  ∀ c ∈ rest.head?, c = 0x2C ∨ c = 0x5D ∨ c = 0x7D ∨ c = 0x0A

theorem ends_nil : Ends [] := by simp [Ends]

section Integers

variable {rest : Text} {n : Nat}

theorem Ends.not_digit (h : Ends rest) : ∀ c ∈ rest.head?, c.isAsciiDigit = false := by
  intro c hc
  rcases h c hc with rfl | rfl | rfl | rfl <;> rfl

theorem fraction_of_ends (h : Ends rest) : fraction rest = ([], rest) := by
  cases rest with
  | nil => rfl
  | cons c behind =>
    have hc : c ≠ 0x2E := by
      rcases h c rfl with rfl | rfl | rfl | rfl <;> decide
    simp [fraction, hc]

theorem exponent?_of_ends (h : Ends rest) : exponent? rest = (none, rest) := by
  cases rest with
  | nil => rfl
  | cons c behind =>
    have hc : c ≠ 0x65 ∧ c ≠ 0x45 := by
      rcases h c rfl with rfl | rfl | rfl | rfl <;> decide
    simp [exponent?, hc]

theorem wholePart_ofNat (h : Ends rest) (n : Nat) :
    wholePart (Text.ofNat n ++ rest) = (Text.ofNat n, rest) := by
  rcases Nat.eq_zero_or_pos n with rfl | hn
  · rfl
  · obtain ⟨d, digits, hdigits⟩ := List.exists_cons_of_ne_nil (Text.ofNat_ne_nil n)
    have hzero := Text.head?_ofNat hn
    have hhead : (Text.ofNat n ++ rest).head? ≠ some 0x30 := by
      rw [hdigits] at hzero ⊢
      exact hzero
    rw [wholePart_of_head hhead, digitRun_append Text.isAsciiDigit_of_mem_ofNat h.not_digit]

/-- The number of digits of an integer, if they are more than are read. -/
def longInteger? (i : Int) : Option Nat :=
  if i.natAbs < 10 ^ Text.digitLimit then none else some (Text.ofNat i.natAbs).length

/-- A result, unless an integer with too many digits stands in its way. -/
def unlessLong {α : Type} (long : Option Nat) (a : α) : Except Stop α :=
  match long with
  | none => .ok a
  | some count => .error (.tooManyDigits count)

-- The digits of a natural number are read as it.
theorem unsignedNumber_ofNat (h : Ends rest) {i : Int} (hi : i.natAbs = n) (negative : Bool)
    (hsign : (if negative then -(n : Int) else n) = i) (left : Nat) :
    unsignedNumber negative left (Text.ofNat n ++ rest) =
      unlessLong (longInteger? i) (.int i, rest) := by
  have hlimit := Text.length_ofNat_le_iff (n := n) (by decide : 0 < Text.digitLimit)
  rw [unsignedNumber, wholePart_ofNat h, longInteger?, hi]
  simp only [Text.ofNat_ne_nil, fraction_of_ends h, exponent?_of_ends h, and_self, if_true,
    if_false, Text.decimalValue_ofNat, hsign]
  by_cases hlong : n < 10 ^ Text.digitLimit
  · rw [if_pos hlong, if_neg (Nat.not_lt.mpr (hlimit.mpr hlong))]
    rfl
  · rw [if_neg hlong, if_pos (Nat.not_le.mp (mt hlimit.mp hlong))]
    rfl

-- No word starts like an integer.
theorem find?_words {t : Text} (h : StartsInteger t) :
    (words.find? fun (word, _) => word.isPrefixOf t) = none := by
  rw [List.find?_eq_none]
  exact fun word hmem hword => not_startsInteger_of_word hmem hword h

/-- **What is written of an integer is read as it, unless it has too many digits.** -/
theorem scalar_ofInt (h : Ends rest) (i : Int) :
    scalar (Text.ofInt i ++ rest) = unlessLong (longInteger? i) (.int i, rest) := by
  have hdigit (n : Nat) : ∃ d digits, d.isAsciiDigit = true ∧ Text.ofNat n = d :: digits := by
    obtain ⟨d, digits, hdigits⟩ := List.exists_cons_of_ne_nil (Text.ofNat_ne_nil n)
    exact ⟨d, digits, Text.isAsciiDigit_of_mem_ofNat d (hdigits ▸ List.mem_cons_self), hdigits⟩
  cases i with
  | ofNat n =>
    obtain ⟨d, digits, hd, hdigits⟩ := hdigit n
    have hminus : d ≠ 0x2D := by
      rintro rfl
      exact absurd hd (by decide)
    have hread := unsignedNumber_ofNat h (i := .ofNat n) (n := n) rfl false rfl
      (Text.ofNat n ++ rest).length
    rw [Text.ofInt, scalar, find?_words ⟨d, hd, .inl ⟨digits ++ rest, by rw [hdigits]; rfl⟩⟩,
      ← hread, hdigits, List.cons_append]
    simp only [number, unsignedNumber, hminus, if_false]
  | negSucc n =>
    obtain ⟨d, digits, hd, hdigits⟩ := hdigit (n + 1)
    have hread := unsignedNumber_ofNat h (i := .negSucc n) (n := n + 1) rfl true rfl
      (0x2D :: (Text.ofNat (n + 1) ++ rest)).length
    rw [Text.ofInt, scalar, find?_words ⟨d, hd, .inr ⟨digits ++ rest, by rw [hdigits]; rfl⟩⟩,
      ← hread]
    simp only [number, unsignedNumber, List.cons_append, if_true]

end Integers

/-! ## 4. Parts of containers -/

/-- A value that is told from what is written of it: containers nest at most `depth` deep, no text
holds a surrogate, no object has two members of one name, and no number is a floating-point one. -/
inductive Plain : Nat → Json → Prop
  | null {depth : Nat} : Plain depth .null
  | bool {depth : Nat} (b : Bool) : Plain depth (.bool b)
  | int {depth : Nat} (i : Int) : Plain depth (.int i)
  | str {depth : Nat} {t : Text} (h : ∀ c ∈ t, c.isSurrogate = false) : Plain depth (.str t)
  | arr {depth : Nat} {items : List Json} (h : ∀ item ∈ items, Plain depth item) :
      Plain (depth + 1) (.arr items)
  | obj {depth : Nat} {members : List (Text × Json)} (hnames : (members.map Prod.fst).Nodup)
      (hscalar : ∀ member ∈ members, ∀ c ∈ member.1, c.isSurrogate = false)
      (h : ∀ member ∈ members, Plain depth member.2) : Plain (depth + 1) (.obj members)

mutual

/-- The number of digits of the first integer in a value that has too many, if there is one. -/
def long? : Json → Option Nat
  | .int i => longInteger? i
  | .arr items => longItem? items
  | .obj members => longMember? members
  | _ => none

def longItem? : List Json → Option Nat
  | [] => none
  | item :: items => (long? item).or (longItem? items)

def longMember? : List (Text × Json) → Option Nat
  | [] => none
  | (_, value) :: members => (long? value).or (longMember? members)

end

section Blanks

variable {blanks rest : Text} {c : CodePoint}

theorem skipBlanks_append (hblanks : ∀ b ∈ blanks, isBlankChar b = true)
    (hc : isBlankChar c = false) : skipBlanks (blanks ++ c :: rest) = c :: rest := by
  rw [skipBlanks, List.dropWhile_append_of_pos hblanks]
  exact skipBlanks_cons hc rest

-- Blanks in front of what does not start with one are skipped.
theorem skipBlanks_before {t : Text} (hblanks : ∀ b ∈ blanks, isBlankChar b = true)
    (ht : ∃ c u, t = c :: u ∧ isBlankChar c = false) :
    skipBlanks (blanks ++ (t ++ rest)) = t ++ rest := by
  obtain ⟨c, u, rfl, hc⟩ := ht
  exact skipBlanks_append hblanks hc

theorem isBlankChar_of_mem_newLine {indent : Option Nat} {level : Nat} :
    ∀ b ∈ newLine indent level, isBlankChar b = true := by
  cases indent with
  | none => simp [newLine]
  | some width =>
    intro b hb
    rcases List.mem_cons.mp hb with rfl | hspace
    · rfl
    · rw [List.eq_of_mem_replicate hspace]
      rfl

-- What separates two parts is a comma with blanks behind it.
theorem separator_eq (indent : Option Nat) (level : Nat) :
    ∃ blanks, separator indent level = 0x2C :: blanks ∧ ∀ b ∈ blanks, isBlankChar b = true := by
  cases indent with
  | none => exact ⟨[0x20], rfl, by simp [isBlankChar]⟩
  | some width => exact ⟨newLine (some width) level, rfl, isBlankChar_of_mem_newLine⟩

-- Behind a part comes a comma, and then the next part.
theorem skipBlanks_separator {t : Text} (indent : Option Nat) (level : Nat) (rest : Text)
    (ht : ∃ c u, t = c :: u ∧ isBlankChar c = false) :
    ∃ after, skipBlanks (separator indent level ++ (t ++ rest)) = 0x2C :: after ∧
      skipBlanks after = t ++ rest := by
  obtain ⟨blanks, hseparator, hblanks⟩ := separator_eq indent level
  refine ⟨blanks ++ (t ++ rest), ?_, skipBlanks_before hblanks ht⟩
  rw [hseparator]
  exact skipBlanks_cons (by decide) _

end Blanks

section Heads

-- An integer starts with a digit or a minus sign.
theorem head_ofInt (i : Int) :
    ∃ c t, Text.ofInt i = c :: t ∧ ∀ d : CodePoint, d.val < 0x2D ∨ 0x39 < d.val → c ≠ d := by
  cases i with
  | ofNat n =>
    obtain ⟨c, digits, hdigits⟩ := List.exists_cons_of_ne_nil (Text.ofNat_ne_nil n)
    have hc := Text.isAsciiDigit_of_mem_ofNat c (hdigits ▸ List.mem_cons_self)
    simp only [CodePoint.isAsciiDigit, Bool.and_eq_true, decide_eq_true_eq] at hc
    refine ⟨c, digits, hdigits, ?_⟩
    rintro d hd rfl
    omega
  | negSucc n =>
    refine ⟨0x2D, _, rfl, ?_⟩
    rintro d hd rfl
    exact absurd hd (by decide)

-- What is written of a value starts with something that is neither blank nor the end of an array.
theorem head_renderAt {depth : Nat} {v : Json} (h : Plain depth v) (indent : Option Nat)
    (level : Nat) : ∃ c t, renderAt indent level v = c :: t ∧ isBlankChar c = false ∧ c ≠ 0x5D := by
  cases h with
  | null => exact ⟨_, _, rfl, by decide, by decide⟩
  | bool b => cases b <;> exact ⟨_, _, rfl, by decide, by decide⟩
  | int i =>
    obtain ⟨c, t, hhead, hc⟩ := head_ofInt i
    refine ⟨c, t, hhead, ?_, hc 0x5D (by decide)⟩
    simp only [isBlankChar, Bool.or_eq_false_iff, decide_eq_false_iff_not]
    exact ⟨⟨⟨hc 0x20 (by decide), hc 0x09 (by decide)⟩, hc 0x0A (by decide)⟩, hc 0x0D (by decide)⟩
  | str => exact ⟨doubleQuote, _, rfl, by decide, by decide⟩
  | @arr _ items => cases items <;> exact ⟨0x5B, _, rfl, by decide, by decide⟩
  | @obj _ members => cases members <;> exact ⟨0x7B, _, rfl, by decide, by decide⟩

theorem head_renderItems {depth : Nat} {v : Json} (h : Plain depth v) (indent : Option Nat)
    (level : Nat) (vs : List Json) :
    ∃ c t, renderItems indent level (v :: vs) = c :: t ∧ isBlankChar c = false ∧ c ≠ 0x5D := by
  obtain ⟨c, t, hhead, hc⟩ := head_renderAt h indent level
  cases vs with
  | nil => exact ⟨c, t, hhead, hc⟩
  | cons next rest =>
    rw [renderItems, hhead]
    exact ⟨c, _, rfl, hc⟩

theorem head_renderMembers (indent : Option Nat) (level : Nat) (member : Text × Json)
    (members : List (Text × Json)) :
    ∃ t, renderMembers indent level (member :: members) = doubleQuote :: t := by
  obtain ⟨name, value⟩ := member
  cases members <;> exact ⟨_, rfl⟩

end Heads

section Parts

variable {item : Reader Json} {indent : Option Nat} {level fuel : Nat} {rest : Text}

/-- A reader reads a value from what is written of it, unless an integer in it is too long. -/
def Reads (item : Reader Json) (indent : Option Nat) (level : Nat) (v : Json) : Prop :=
  ∀ rest, Ends rest →
    item (renderAt indent level v ++ rest) = unlessLong (long? v) (v, rest)

theorem ends_separator (indent : Option Nat) (level : Nat) (rest : Text) :
    Ends (separator indent level ++ rest) := by
  obtain ⟨blanks, hblanks, -⟩ := separator_eq indent level
  rw [hblanks]
  exact fun c hc => .inl (Option.some.inj hc).symm

theorem ends_newLine (indent : Option Nat) (level : Nat) (h : Ends rest) :
    Ends (newLine indent level ++ rest) := by
  cases indent with
  | none => exact h
  | some width => exact fun c hc => .inr (.inr (.inr (Option.some.inj hc).symm))

theorem ok_bind {α β : Type} (a : α) (next : α → Except Stop β) :
    (Except.ok a >>= next) = next a := rfl

-- Items are read one after the other up to the bracket.
theorem items_renderItems {depth : Nat} {vs : List Json} (hne : vs ≠ [])
    (hplain : ∀ v ∈ vs, Plain depth v) (hread : ∀ v ∈ vs, Reads item indent level v)
    (hfuel : vs.length ≤ fuel) (outer : Nat) (rest : Text) :
    items item fuel (renderItems indent level vs ++ (newLine indent outer ++ 0x5D :: rest)) =
      unlessLong (longItem? vs) (vs, rest) := by
  induction vs generalizing fuel with
  | nil => exact absurd rfl hne
  | cons v more ih =>
    obtain ⟨fuel, rfl⟩ := Nat.exists_eq_add_one.mpr (Nat.lt_of_lt_of_le (Nat.succ_pos _) hfuel)
    rw [List.forall_mem_cons] at hplain hread
    cases more with
    | nil =>
      have hends : Ends (newLine indent outer ++ 0x5D :: rest) :=
        ends_newLine indent outer (by simp [Ends])
      rw [renderItems, items, hread.1 _ hends, longItem?, longItem?, Option.or_none]
      cases long? v with
      | some count => rfl
      | none =>
        rw [unlessLong, ok_bind]
        dsimp only
        rw [skipBlanks_append isBlankChar_of_mem_newLine (by decide)]
        rfl
    | cons next others =>
      obtain ⟨c, t, hhead, hc, -⟩ :=
        head_renderItems (hplain.2 next List.mem_cons_self) indent level others
      obtain ⟨after, hcomma, hafter⟩ := skipBlanks_separator indent level
        (newLine indent outer ++ 0x5D :: rest) ⟨c, t, hhead, hc⟩
      have hrest := ih (List.cons_ne_nil _ _) hplain.2 hread.2 (Nat.le_of_succ_le_succ hfuel)
      rw [renderItems, List.append_assoc, List.append_assoc, items,
        hread.1 _ (ends_separator indent level _), longItem?]
      cases long? v with
      | some count => rfl
      | none =>
        rw [unlessLong, ok_bind]
        dsimp only
        rw [hcomma]
        dsimp only
        rw [if_neg (by decide), if_pos rfl, hafter, hrest, Option.none_or]
        cases longItem? (next :: others) <;> rfl

-- A name is read up to what stands behind the colon.
theorem name_renderString {t : Text} (h : ∀ c ∈ t, c.isSurrogate = false) {v : Text}
    (hv : ∃ c u, v = c :: u ∧ isBlankChar c = false) :
    name (renderString t ++ (": " ++ (v ++ rest))) = .ok (t, v ++ rest) := by
  have hstring := stringFrom_renderString h (renderString t ++ (": " ++ (v ++ rest)))
    (": " ++ (v ++ rest))
  have hquoted : renderString t ++ (": " ++ (v ++ rest)) =
      doubleQuote :: (t.flatMap escapeCodePoint ++ doubleQuote :: (": " ++ (v ++ rest))) := by
    simp [renderString]
  have hcolon : skipBlanks (": " ++ (v ++ rest)) = 0x3A :: 0x20 :: (v ++ rest) :=
    skipBlanks_cons (by decide) _
  have hblank : ∀ b ∈ ([0x20] : Text), isBlankChar b = true := by simp [isBlankChar]
  have hvalue : skipBlanks (0x20 :: (v ++ rest)) = v ++ rest := skipBlanks_before hblank hv
  rw [hquoted] at hstring ⊢
  rw [name, if_pos rfl, hstring, ok_bind]
  dsimp only
  rw [hcolon]
  dsimp only
  rw [if_pos rfl, hvalue]
  rfl

-- Members are read one after the other up to the brace.
theorem members_renderMembers {depth : Nat} {ms : List (Text × Json)} (hne : ms ≠ [])
    (hscalar : ∀ m ∈ ms, ∀ c ∈ m.1, c.isSurrogate = false) (hplain : ∀ m ∈ ms, Plain depth m.2)
    (hread : ∀ m ∈ ms, Reads item indent level m.2) (hfuel : ms.length ≤ fuel) (outer : Nat)
    (rest : Text) :
    members item fuel (renderMembers indent level ms ++ (newLine indent outer ++ 0x7D :: rest)) =
      unlessLong (longMember? ms) (ms, rest) := by
  induction ms generalizing fuel with
  | nil => exact absurd rfl hne
  | cons m more ih =>
    obtain ⟨fuel, rfl⟩ := Nat.exists_eq_add_one.mpr (Nat.lt_of_lt_of_le (Nat.succ_pos _) hfuel)
    obtain ⟨key, v⟩ := m
    rw [List.forall_mem_cons] at hscalar hplain hread
    obtain ⟨c, t, hhead, hc, -⟩ := head_renderAt hplain.1 indent level
    cases more with
    | nil =>
      have hends : Ends (newLine indent outer ++ 0x7D :: rest) :=
        ends_newLine indent outer (by simp [Ends])
      rw [renderMembers, List.append_assoc, List.append_assoc, members,
        name_renderString hscalar.1 ⟨c, t, hhead, hc⟩, ok_bind]
      dsimp only
      rw [hread.1 _ hends, longMember?, longMember?, Option.or_none]
      cases long? v with
      | some count => rfl
      | none =>
        rw [unlessLong, ok_bind]
        dsimp only
        rw [skipBlanks_append isBlankChar_of_mem_newLine (by decide)]
        rfl
    | cons next others =>
      obtain ⟨u, hnext⟩ := head_renderMembers indent level next others
      obtain ⟨after, hcomma, hafter⟩ := skipBlanks_separator indent level
        (newLine indent outer ++ 0x7D :: rest) ⟨_, u, hnext, by decide⟩
      have hrest := ih (List.cons_ne_nil _ _) hscalar.2 hplain.2 hread.2
        (Nat.le_of_succ_le_succ hfuel)
      rw [renderMembers, List.append_assoc, List.append_assoc, List.append_assoc,
        List.append_assoc, members, name_renderString hscalar.1 ⟨c, t, hhead, hc⟩, ok_bind]
      dsimp only
      rw [hread.1 _ (ends_separator indent level _), longMember?]
      cases long? v with
      | some count => rfl
      | none =>
        rw [unlessLong, ok_bind]
        dsimp only
        rw [hcomma]
        dsimp only
        rw [if_neg (by decide), if_pos rfl, hafter, hrest, Option.none_or]
        cases longMember? (next :: others) <;> rfl

end Parts

/-! ## 5. Values -/

section Values

variable {indent : Option Nat} {level fuel depth : Nat} {rest : Text} {v : Json}

-- What starts with no quote, bracket or brace is a word or a number.
theorem value_scalar {c : CodePoint} {t : Text} (hquote : c ≠ doubleQuote) (hbracket : c ≠ 0x5B)
    (hbrace : c ≠ 0x7B) : value fuel depth (c :: t) = scalar (c :: t) := by
  rw [value.eq_def]
  dsimp only
  rw [if_neg hquote, if_neg hbracket, if_neg hbrace]

theorem value_renderString {t : Text} (h : ∀ c ∈ t, c.isSurrogate = false) :
    value fuel depth (renderString t ++ rest) = .ok (.str t, rest) := by
  have hquoted : renderString t ++ rest =
      doubleQuote :: (t.flatMap escapeCodePoint ++ doubleQuote :: rest) := by
    simp [renderString]
  rw [hquoted, value.eq_def]
  dsimp only
  rw [if_pos rfl, stringFrom_renderString h]
  rfl

theorem value_array {after : Text} (hfirst : skipBlanks rest = after)
    (hafter : ∃ c t, after = c :: t ∧ c ≠ 0x5D) : value fuel (depth + 1) (0x5B :: rest) =
      (items (value fuel depth) fuel after).map fun (vs, rest) => (.arr vs, rest) := by
  obtain ⟨c, t, rfl, hc⟩ := hafter
  rw [value.eq_def]
  dsimp only
  rw [if_neg (by decide), if_pos rfl, hfirst]
  exact if_neg hc

theorem value_object {after : Text} (hfirst : skipBlanks rest = after)
    (hafter : ∃ c t, after = c :: t ∧ c ≠ 0x7D) : value fuel (depth + 1) (0x7B :: rest) =
      (members (value fuel depth) fuel after).map fun (ms, rest) => (ofMembers ms, rest) := by
  obtain ⟨c, t, rfl, hc⟩ := hafter
  rw [value.eq_def]
  dsimp only
  rw [if_neg (by decide), if_neg (by decide), if_pos rfl, hfirst]
  exact if_neg hc

-- Members of different names stand as they are listed.
theorem ofMembers_of_nodup {ms : List (Text × Json)} (h : (ms.map Prod.fst).Nodup) :
    ofMembers ms = .obj ms := by
  have hfold (listed : List (Text × Json)) (kept : OrderedMap Text Json) :
      (kept.insertAll listed).entries =
        listed.foldl (fun members (name, value) => Entries.put name value members)
          kept.entries := by
    induction listed generalizing kept with
    | nil => rfl
    | cons entry rest ih => exact ih (kept.insert entry.1 entry.2)
  have hentries := (hfold ms ∅).symm.trans (OrderedMap.entries_ofList h)
  exact congrArg Json.obj hentries

theorem length_renderAt_pos (h : Plain depth v) (indent : Option Nat) (level : Nat) :
    0 < (renderAt indent level v).length := by
  obtain ⟨c, t, hhead, -⟩ := head_renderAt h indent level
  rw [hhead]
  exact Nat.succ_pos _

-- There is room for every item, and for as many as there are.
theorem length_renderItems {vs : List Json} (h : ∀ v ∈ vs, Plain depth v) (indent : Option Nat)
    (level : Nat) :
    vs.length ≤ (renderItems indent level vs).length ∧
      ∀ v ∈ vs, (renderAt indent level v).length ≤ (renderItems indent level vs).length := by
  induction vs with
  | nil => simp [renderItems]
  | cons v more ih =>
    rw [List.forall_mem_cons] at h
    have hpos := length_renderAt_pos h.1 indent level
    cases more with
    | nil => exact ⟨hpos, by simp [renderItems]⟩
    | cons next others =>
      obtain ⟨hcount, hall⟩ := ih h.2
      rw [renderItems, List.length_append, List.length_append, List.length_cons]
      refine ⟨by omega, List.forall_mem_cons.mpr ⟨by omega, fun w hw => ?_⟩⟩
      have hw' := hall w hw
      omega

theorem length_renderMembers (indent : Option Nat) (level : Nat) (ms : List (Text × Json)) :
    ms.length ≤ (renderMembers indent level ms).length ∧
      ∀ m ∈ ms, (renderAt indent level m.2).length ≤ (renderMembers indent level ms).length := by
  induction ms with
  | nil => simp [renderMembers]
  | cons m more ih =>
    obtain ⟨key, v⟩ := m
    have hpos : 0 < (renderString key).length := by simp [renderString]
    cases more with
    | nil =>
      simp only [renderMembers, List.length_append, List.length_singleton, List.mem_singleton,
        forall_eq]
      omega
    | cons next others =>
      obtain ⟨hcount, hall⟩ := ih
      rw [renderMembers]
      simp only [List.length_append, List.length_cons, List.forall_mem_cons] at hcount hall ⊢
      refine ⟨by omega, by omega, by omega, fun w hw => ?_⟩
      have hw' := hall.2 w hw
      omega

theorem map_unlessLong {α β : Type} (long : Option Nat) (a : α) (f : α → β) :
    (unlessLong long a).map f = unlessLong long (f a) := by
  cases long <;> rfl

/-- **A value is read from what is written of it, unless an integer in it is too long.** -/
theorem reads_renderAt (h : Plain depth v) (hfuel : (renderAt indent level v).length ≤ fuel) :
    Reads (value fuel depth) indent level v := by
  induction h generalizing level with
  | null =>
    intro rest _
    exact value_scalar (by decide) (by decide) (by decide)
  | bool b =>
    intro rest _
    cases b <;> exact value_scalar (by decide) (by decide) (by decide)
  | @int depth i =>
    intro rest hrest
    obtain ⟨c, t, hhead, hc⟩ := head_ofInt i
    rw [renderAt, long?, ← scalar_ofInt hrest, hhead]
    exact value_scalar (hc doubleQuote (by decide)) (hc 0x5B (by decide)) (hc 0x7B (by decide))
  | str ht =>
    intro rest _
    exact value_renderString ht
  | @arr depth vs hplain ih =>
    intro rest _
    cases vs with
    | nil => rfl
    | cons first more =>
      obtain ⟨c, t, hhead, hblank, hbracket⟩ :=
        head_renderItems (hplain first List.mem_cons_self) indent (level + 1) more
      obtain ⟨hcount, hparts⟩ := length_renderItems hplain indent (level + 1)
      rw [renderAt] at hfuel ⊢
      simp only [List.length_append] at hfuel
      have hroom : (renderItems indent (level + 1) (first :: more)).length ≤ fuel := by omega
      have hitems := items_renderItems (List.cons_ne_nil _ _) hplain
        (fun v hv => ih v hv ((hparts v hv).trans hroom)) (hcount.trans hroom) level rest
      simp only [List.append_assoc]
      refine (value_array (skipBlanks_before isBlankChar_of_mem_newLine ⟨c, t, hhead, hblank⟩)
        ⟨c, _, by rw [hhead]; rfl, hbracket⟩).trans ?_
      refine (congrArg _ hitems).trans ?_
      exact map_unlessLong _ _ _
  | @obj depth ms hnames hscalar hplain ih =>
    intro rest _
    cases ms with
    | nil => rfl
    | cons first more =>
      obtain ⟨t, hhead⟩ := head_renderMembers indent (level + 1) first more
      obtain ⟨hcount, hparts⟩ := length_renderMembers indent (level + 1) (first :: more)
      rw [renderAt] at hfuel ⊢
      simp only [List.length_append] at hfuel
      have hroom : (renderMembers indent (level + 1) (first :: more)).length ≤ fuel := by omega
      have hmembers := members_renderMembers (List.cons_ne_nil _ _) hscalar hplain
        (fun m hm => ih m hm ((hparts m hm).trans hroom)) (hcount.trans hroom) level rest
      simp only [List.append_assoc]
      refine (value_object (skipBlanks_before isBlankChar_of_mem_newLine ⟨_, t, hhead, by decide⟩)
        ⟨doubleQuote, _, by rw [hhead]; rfl, by decide⟩).trans ?_
      refine (congrArg _ hmembers).trans ?_
      rw [map_unlessLong]
      dsimp only
      rw [ofMembers_of_nodup hnames]
      rfl

end Values

/-! ## 6. Documents -/

section Characters

variable {indent : Option Nat} {level : Nat}

theorem ascii_newLine (indent : Option Nat) (level : Nat) : Text.Ascii (newLine indent level) := by
  cases indent with
  | none => exact Text.ascii_nil
  | some width =>
    refine Text.ascii_cons.mpr ⟨by decide, fun c hc => ?_⟩
    rw [List.eq_of_mem_replicate hc]
    decide

theorem ascii_separator (indent : Option Nat) (level : Nat) :
    Text.Ascii (separator indent level) := by
  cases indent with
  | none => exact (by decide : Text.Ascii (Text.ofString ", "))
  | some width =>
    exact Text.ascii_append.mpr ⟨by decide, ascii_newLine (some width) level⟩

theorem ascii_escapeUnit (n : Nat) : Text.Ascii (escapeUnit n) := by
  have hdigit (m : Nat) := CodePoint.val_hexDigit_lt (Nat.mod_lt m (by decide : 0 < 0x10))
  rw [escapeUnit, hexPadded_four]
  simp only [Text.ascii_append, Text.ascii_cons, hdigit, Text.ascii_nil, and_self, and_true]
  decide

theorem ascii_escapeCodePoint (c : CodePoint) : Text.Ascii (escapeCodePoint c) := by
  unfold escapeCodePoint
  split
  · rename_i hspecial
    simp only [Bool.or_eq_true, decide_eq_true_eq] at hspecial
    rcases hspecial with rfl | rfl <;> decide
  iterate 5
    split
    · decide
  split
  · rename_i hprintable
    simp only [Bool.and_eq_true, decide_eq_true_eq] at hprintable
    exact Text.ascii_cons.mpr ⟨by omega, Text.ascii_nil⟩
  split
  · exact ascii_escapeUnit c.val
  · exact Text.ascii_append.mpr ⟨ascii_escapeUnit _, ascii_escapeUnit _⟩

theorem ascii_renderString (t : Text) : Text.Ascii (renderString t) := by
  intro c hc
  simp only [renderString, List.cons_append, List.mem_cons, List.mem_append, List.mem_flatMap,
    List.not_mem_nil, or_false] at hc
  rcases hc with rfl | ⟨d, -, hd⟩ | rfl
  · decide
  · exact ascii_escapeCodePoint d c hd
  · decide

theorem ascii_renderItems {vs : List Json} (h : ∀ v ∈ vs, Text.Ascii (renderAt indent level v)) :
    Text.Ascii (renderItems indent level vs) := by
  induction vs with
  | nil => exact Text.ascii_nil
  | cons v more ih =>
    rw [List.forall_mem_cons] at h
    cases more with
    | nil => exact h.1
    | cons next others =>
      rw [renderItems]
      simp only [Text.ascii_append]
      exact ⟨⟨h.1, ascii_separator indent level⟩, ih h.2⟩

theorem ascii_renderMembers {ms : List (Text × Json)}
    (h : ∀ m ∈ ms, Text.Ascii (renderAt indent level m.2)) :
    Text.Ascii (renderMembers indent level ms) := by
  have hcolon : Text.Ascii (Text.ofString ": ") := by decide
  induction ms with
  | nil => exact Text.ascii_nil
  | cons m more ih =>
    rw [List.forall_mem_cons] at h
    cases more with
    | nil =>
      simp only [renderMembers, Text.ascii_append]
      exact ⟨⟨ascii_renderString m.1, hcolon⟩, h.1⟩
    | cons next others =>
      simp only [renderMembers, Text.ascii_append]
      exact ⟨⟨⟨⟨ascii_renderString m.1, hcolon⟩, h.1⟩, ascii_separator indent level⟩, ih h.2⟩

theorem ascii_renderAt {depth : Nat} {v : Json} (h : Plain depth v) :
    Text.Ascii (renderAt indent level v) := by
  induction h generalizing level with
  | null => exact (by decide : Text.Ascii (Text.ofString "null"))
  | bool b =>
    cases b with
    | false => exact (by decide : Text.Ascii (Text.ofString "false"))
    | true => exact (by decide : Text.Ascii (Text.ofString "true"))
  | int i => exact Text.ascii_ofInt i
  | str => exact ascii_renderString _
  | @arr _ vs _ ih =>
    cases vs with
    | nil => exact (by decide : Text.Ascii (Text.ofString "[]"))
    | cons first more =>
      simp only [renderAt, Text.ascii_append]
      exact ⟨⟨⟨⟨by decide, ascii_newLine _ _⟩, ascii_renderItems fun v hv => ih v hv⟩,
        ascii_newLine _ _⟩, by decide⟩
  | @obj _ ms _ _ _ ih =>
    cases ms with
    | nil => exact (by decide : Text.Ascii (Text.ofString "\x7b\x7d"))
    | cons first more =>
      simp only [renderAt, Text.ascii_append]
      exact ⟨⟨⟨⟨by decide, ascii_newLine _ _⟩, ascii_renderMembers fun m hm => ih m hm⟩,
        ascii_newLine _ _⟩, by decide⟩

/-- **What is written of a value is ASCII.** -/
theorem ascii_render {depth : Nat} {v : Json} (h : Plain depth v) (indent : Option Nat) :
    Text.Ascii (render indent v) :=
  ascii_renderAt h

end Characters

/-- **A document that is written of a value is read as the value, unless an integer in it has more
digits than are read.** -/
theorem ofText_render {v : Json} (h : Plain depthLimit v) (indent : Option Nat) :
    ofText (render indent v) =
      match long? v with
      | none => .ok v
      | some count => .error (.tooManyDigits count) := by
  obtain ⟨c, t, hhead, hblank, -⟩ := head_renderAt h indent 0
  have hmark : (render indent v).head? ≠ some 0xFEFF := by
    have hc := ascii_render h indent c (by simp [render, hhead])
    rw [render, hhead]
    rintro hfirst
    obtain rfl := Option.some.inj hfirst
    exact absurd hc (by decide)
  have hskip : skipBlanks (render indent v) = renderAt indent 0 v ++ [] := by
    rw [List.append_nil, render, hhead]
    exact skipBlanks_cons hblank t
  have hread : Reads (value (render indent v).length depthLimit) indent 0 v :=
    reads_renderAt h (Nat.le_refl _)
  rw [ofText, if_neg hmark, ofMarklessText, document, hskip, hread [] ends_nil]
  cases long? v <;> rfl

end Json
end StateOwnership
