import Mathlib.Data.List.TakeWhile
import Mathlib.Tactic.Common
import StateOwnership.Json.Reader

/-!
# Reading strings, words and numbers

What is left after a string, a word or a number is never more than before. **No string is stopped by a
limit, and a word or a number is stopped by one if and only if it is an integer with more digits than
are read.**
-/

namespace StateOwnership.Json

open Text (doubleQuote)

/-- A reader was stopped by a limit, and not by what is wrong with the document. -/
def Stop.ofLimit : Stop → Bool
  | .problem .. => false
  | .tooDeep _ => true
  | .tooManyDigits _ => true

/-! ## 1. Strings and names -/

theorem length_skipBlanks (t : Text) : (skipBlanks t).length ≤ t.length :=
  List.length_dropWhile_le _ _

theorem skipBlanks_cons {c : CodePoint} (h : isBlankChar c = false) (rest : Text) :
    skipBlanks (c :: rest) = c :: rest := by
  simp [skipBlanks, h]

/-- A reader reads on in the text or stops at a problem, but not by a limit. -/
def Unlimited {α : Type} (t : Text) : Except Stop (α × Text) → Prop
  | .ok (_, rest) => rest.length ≤ t.length
  | .error stop => stop.ofLimit = false

theorem Unlimited.mono {α : Type} {t u : Text} {read : Except Stop (α × Text)}
    (h : Unlimited t read) (hle : t.length ≤ u.length) : Unlimited u read := by
  cases read with
  | error stop => exact h
  | ok found => exact Nat.le_trans h hle

theorem Unlimited.prepend {t : Text} {read : Except Stop (Text × Text)} (h : Unlimited t read)
    (c : CodePoint) : Unlimited t (prepend c read) := by
  cases read <;> exact h

theorem stringFrom_unlimited (opening t : Text) : Unlimited t (stringFrom opening t) := by
  fun_induction stringFrom opening t with
  | case1 | case3 | case4 | case5 | case11 | case13 | case14 => rfl
  | case2 after => exact Nat.le_succ _
  | case6 | case7 | case8 | case9 | case10 | case12 | case15 =>
    rename_i ih
    refine (ih.prepend _).mono ?_
    simp only [List.length_cons]
    omega

theorem name_unlimited (t : Text) : Unlimited t (name t) := by
  cases t with
  | nil => rfl
  | cons c after =>
    rw [name]
    split
    · have hstring := stringFrom_unlimited (c :: after) after
      cases hread : stringFrom (c :: after) after with
      | error stop =>
        rw [hread] at hstring
        exact hstring
      | ok found =>
        obtain ⟨s, behind⟩ := found
        rw [hread] at hstring
        have hblanks := length_skipBlanks behind
        simp only [bind, Except.bind]
        split
        · rename_i colon more hskip
          have hmore := length_skipBlanks more
          rw [hskip, List.length_cons] at hblanks
          split
          · have hafter : behind.length ≤ after.length := hstring
            simp only [Unlimited, pure, Except.pure, List.length_cons]
            omega
          · rfl
        · rfl
    · rfl

/-! ## 2. Numbers -/

/-- A text starts with an integer that has more digits than are read. -/
def StartsLong (t : Text) : Prop :=
  ∃ sign digits rest, t = sign ++ (digits ++ rest) ∧ (sign = [] ∨ sign = [0x2D]) ∧
    (∀ c ∈ digits, c.isAsciiDigit = true) ∧ digits.head? ≠ some 0x30 ∧
    Text.digitLimit < digits.length ∧ (∀ c ∈ rest.head?, c.isAsciiDigit = false) ∧
    (fraction rest).1 = [] ∧ (exponent? rest).1 = none

/-- A text without the sign that it may start with. -/
def unsigned (t : Text) : Text :=
  if t.head? = some 0x2D then t.tail else t

/-- A number whose sign was read; `left` code points were left in front of the sign. -/
def unsignedNumber (negative : Bool) (left : Nat) : Reader Json := fun t =>
  let (whole, afterWhole) := wholePart t
  if whole = [] then .error (.problem .expectingValue left)
  else
    let (places, afterPlaces) := fraction afterWhole
    let (power, rest) := exponent? afterPlaces
    if places = [] ∧ power = none then
      if Text.digitLimit < whole.length then .error (.tooManyDigits whole.length)
      else
        let magnitude : Int := Text.decimalValue whole
        .ok (.int (if negative then -magnitude else magnitude), rest)
    else
      .ok (.float (Binary64.ofDecimal negative (Text.decimalValue (whole ++ places))
        (power.getD 0 - places.length)), rest)

section Numbers

variable {t digits rest : Text}

theorem fraction_of_nil (h : (fraction t).1 = []) : (fraction t).2 = t := by
  cases t with
  | nil => rfl
  | cons point rest =>
    simp only [fraction] at h ⊢
    split
    · rename_i hpoint
      rw [if_pos hpoint] at h
      simp only [Bool.and_eq_true, decide_eq_true_eq] at hpoint
      exact absurd h hpoint.2
    · rfl

theorem head_of_long_wholePart (h : 1 < (wholePart t).1.length) : t.head? ≠ some 0x30 := by
  cases t with
  | nil => simp
  | cons c rest =>
    intro hhead
    rw [wholePart, if_pos (Option.some.inj hhead)] at h
    simp at h

theorem wholePart_of_head (h : t.head? ≠ some 0x30) : wholePart t = digitRun t := by
  cases t with
  | nil => rfl
  | cons c rest =>
    have hc : c ≠ 0x30 := fun hc => h (congrArg some hc)
    rw [wholePart, if_neg hc]

theorem sign_append (t : Text) : ∃ sign, (sign = [] ∨ sign = [0x2D]) ∧ t = sign ++ unsigned t := by
  cases t with
  | nil => exact ⟨[], .inl rfl, rfl⟩
  | cons c rest =>
    by_cases hc : c = 0x2D
    · exact ⟨[0x2D], .inr rfl, by simp [unsigned, hc]⟩
    · exact ⟨[], .inl rfl, by simp [unsigned, hc]⟩

theorem digitRun_append (hdigits : ∀ c ∈ digits, c.isAsciiDigit = true)
    (hrest : ∀ c ∈ rest.head?, c.isAsciiDigit = false) :
    digitRun (digits ++ rest) = (digits, rest) := by
  have hnone : rest.takeWhile (·.isAsciiDigit) = [] ∧ rest.dropWhile (·.isAsciiDigit) = rest := by
    cases rest with
    | nil => exact ⟨rfl, rfl⟩
    | cons c behind => simp [hrest c rfl]
  simp [digitRun, List.takeWhile_append_of_pos hdigits, List.dropWhile_append_of_pos hdigits, hnone]

theorem number_eq (t : Text) :
    ∃ negative, number t = unsignedNumber negative t.length (unsigned t) := by
  cases t with
  | nil => exact ⟨false, rfl⟩
  | cons c rest =>
    by_cases hc : c = 0x2D
    · exact ⟨true, by simp only [number, unsignedNumber, unsigned, hc, if_true]; rfl⟩
    · exact ⟨false, by simp [number, unsignedNumber, unsigned, hc]⟩

theorem number_ofLimit :
    (∃ stop, number t = .error stop ∧ stop.ofLimit = true) ↔
      Text.digitLimit < (wholePart (unsigned t)).1.length ∧
        (fraction (wholePart (unsigned t)).2).1 = [] ∧
        (exponent? (fraction (wholePart (unsigned t)).2).2).1 = none := by
  obtain ⟨negative, hnumber⟩ := number_eq t
  rw [hnumber, unsignedNumber]
  dsimp only
  by_cases hwhole : (wholePart (unsigned t)).1 = []
  · simp [hwhole, Stop.ofLimit]
  rw [if_neg hwhole]
  by_cases hinteger : (fraction (wholePart (unsigned t)).2).1 = [] ∧
      (exponent? (fraction (wholePart (unsigned t)).2).2).1 = none
  · rw [if_pos hinteger]
    by_cases hlong : Text.digitLimit < (wholePart (unsigned t)).1.length
    · rw [if_pos hlong]
      exact iff_of_true ⟨_, rfl, rfl⟩ ⟨hlong, hinteger⟩
    · rw [if_neg hlong]
      exact iff_of_false (by simp) fun h => hlong h.1
  · rw [if_neg hinteger]
    exact iff_of_false (by simp) fun h => hinteger h.2

-- A number is stopped by the limit exactly if it is such an integer.
theorem number_ofLimit_iff :
    (∃ stop, number t = .error stop ∧ stop.ofLimit = true) ↔ StartsLong t := by
  rw [number_ofLimit]
  constructor
  · rintro ⟨hlong, hfraction, hexponent⟩
    have hone : 1 < (wholePart (unsigned t)).1.length := Nat.lt_trans (by decide) hlong
    have hzero := head_of_long_wholePart hone
    rw [fraction_of_nil hfraction] at hexponent
    rw [wholePart_of_head hzero] at hlong hfraction hexponent
    obtain ⟨sign, hsign, ht⟩ := sign_append t
    refine ⟨sign, (digitRun (unsigned t)).1, (digitRun (unsigned t)).2, ?_, hsign, ?_, ?_, hlong, ?_,
      hfraction, hexponent⟩
    · rw [digitRun, List.takeWhile_append_dropWhile]
      exact ht
    · exact fun c hc => List.mem_takeWhile_imp hc
    · rw [digitRun, List.head?_takeWhile]
      exact fun hhead => hzero (Option.filter_eq_some_iff.mp hhead).1
    · intro c hc
      have hends := List.head?_dropWhile_not (·.isAsciiDigit) (unsigned t)
      rw [digitRun, Option.mem_def] at hc
      rw [hc] at hends
      exact hends
  · rintro ⟨sign, digits, rest, rfl, hsign, hdigits, hzero, hlong, hends, hfraction, hexponent⟩
    cases digits with
    | nil => simp at hlong
    | cons d more =>
      have hminus : d ≠ 0x2D := by
        rintro rfl
        exact absurd (hdigits 0x2D List.mem_cons_self) (by decide)
      have hunsigned : unsigned (sign ++ (d :: more ++ rest)) = d :: more ++ rest := by
        rcases hsign with rfl | rfl <;> simp [unsigned, hminus]
      have hhead : (d :: more ++ rest).head? ≠ some 0x30 := hzero
      rw [hunsigned, wholePart_of_head hhead, digitRun_append hdigits hends,
        fraction_of_nil hfraction]
      exact ⟨hlong, hfraction, hexponent⟩

theorem length_digitRun (t : Text) : (digitRun t).2.length ≤ t.length :=
  List.length_dropWhile_le _ _

theorem length_wholePart (t : Text) : (wholePart t).2.length ≤ t.length := by
  cases t with
  | nil => exact Nat.le_refl 0
  | cons c rest =>
    rw [wholePart]
    split
    · exact Nat.le_succ _
    · exact length_digitRun _

theorem length_fraction (t : Text) : (fraction t).2.length ≤ t.length := by
  cases t with
  | nil => exact Nat.le_refl 0
  | cons point rest =>
    simp only [fraction]
    split
    · exact Nat.le_succ_of_le (length_digitRun rest)
    · exact Nat.le_refl _

theorem length_exponent (t : Text) : (exponent? t).2.length ≤ t.length := by
  match t with
  | [] => exact Nat.le_refl 0
  | [letter] =>
    unfold exponent?
    dsimp only
    split
    · simp [digitRun]
    · exact Nat.le_refl _
  | letter :: sign :: more =>
    unfold exponent?
    dsimp only
    split
    · have hmore := length_digitRun more
      have hboth := length_digitRun (sign :: more)
      split_ifs
      all_goals
        simp only [List.length_cons] at hboth ⊢
        omega
    · exact Nat.le_refl _

end Numbers

/-! ## 3. Words -/

def StartsInteger (t : Text) : Prop :=
  ∃ d, d.isAsciiDigit = true ∧ ((∃ rest, t = d :: rest) ∨ ∃ rest, t = 0x2D :: d :: rest)

theorem StartsLong.head {t : Text} (h : StartsLong t) : StartsInteger t := by
  obtain ⟨sign, digits, rest, rfl, hsign, hdigits, -, hlong, -⟩ := h
  cases digits with
  | nil => simp at hlong
  | cons d more =>
    refine ⟨d, hdigits d List.mem_cons_self, ?_⟩
    rcases hsign with rfl | rfl
    · exact .inl ⟨more ++ rest, rfl⟩
    · exact .inr ⟨more ++ rest, rfl⟩

theorem not_startsLong_nil : ¬ StartsLong [] := by
  intro h
  obtain ⟨d, -, ⟨rest, ht⟩ | ⟨rest, ht⟩⟩ := h.head <;> simp at ht

theorem not_startsLong_cons {c : CodePoint} {rest : Text} (hminus : c ≠ 0x2D)
    (hdigit : c.isAsciiDigit = false) : ¬ StartsLong (c :: rest) := by
  intro hlong
  obtain ⟨d, hd, ⟨behind, ht⟩ | ⟨behind, ht⟩⟩ := hlong.head
  · rw [(List.cons.inj ht).1, hd] at hdigit
    simp at hdigit
  · exact hminus (List.cons.inj ht).1

-- The words are told from integers by their first two letters.
theorem word_head {word : Text × Json} (h : word ∈ words) :
    ∃ a b rest, word.1 = a :: b :: rest ∧ a.isAsciiDigit = false ∧
      (a = 0x2D → b.isAsciiDigit = false) := by
  simp only [words, List.mem_cons, List.not_mem_nil, or_false] at h
  rcases h with rfl | rfl | rfl | rfl | rfl | rfl <;> exact ⟨_, _, _, rfl, rfl, by decide⟩

theorem not_startsInteger_of_word {t : Text} {word : Text × Json} (hmem : word ∈ words)
    (hword : word.1.isPrefixOf t = true) : ¬ StartsInteger t := by
  rintro ⟨d, hd, hstart⟩
  obtain ⟨a, b, rest, heq, ha, hb⟩ := word_head hmem
  rw [heq, List.isPrefixOf_iff_prefix] at hword
  obtain ⟨behind, rfl⟩ := hword
  rcases hstart with ⟨others, ht⟩ | ⟨others, ht⟩
  · obtain ⟨rfl, -⟩ := List.cons.inj ht
    simp [ha] at hd
  · obtain ⟨rfl, hsecond⟩ := List.cons.inj ht
    obtain ⟨rfl, -⟩ := List.cons.inj hsecond
    simp [hb rfl] at hd

theorem scalar_ofLimit_iff {t : Text} :
    (∃ stop, scalar t = .error stop ∧ stop.ofLimit = true) ↔ StartsLong t := by
  rw [scalar]
  split
  · rename_i word value hfind
    have hword := List.find?_some hfind
    dsimp only at hword
    have hnot := not_startsInteger_of_word (List.mem_of_find?_eq_some hfind) hword
    exact iff_of_false (by simp) fun hlong => hnot hlong.head
  · exact number_ofLimit_iff

theorem length_scalar {t rest : Text} {v : Json} (h : scalar t = .ok (v, rest)) :
    rest.length ≤ t.length := by
  rw [scalar] at h
  split at h
  · obtain ⟨-, rfl⟩ := Prod.mk.inj (Except.ok.inj h)
    simp
  · obtain ⟨negative, hnumber⟩ := number_eq t
    rw [hnumber, unsignedNumber] at h
    dsimp only at h
    obtain ⟨sign, -, ht⟩ := sign_append t
    have hunsigned := congrArg List.length ht
    rw [List.length_append] at hunsigned
    have hwhole := length_wholePart (unsigned t)
    have hfraction := length_fraction (wholePart (unsigned t)).2
    have hexponent := length_exponent (fraction (wholePart (unsigned t)).2).2
    split at h
    · simp at h
    split at h
    · split at h
      · simp at h
      · obtain ⟨-, rfl⟩ := Prod.mk.inj (Except.ok.inj h)
        omega
    · obtain ⟨-, rfl⟩ := Prod.mk.inj (Except.ok.inj h)
      omega

end StateOwnership.Json
