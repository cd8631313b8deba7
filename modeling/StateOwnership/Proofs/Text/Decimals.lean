import Mathlib.Algebra.Group.Nat.Defs
import Mathlib.Data.List.Induction
import StateOwnership.Text.Basic

/-!
# Numbers in decimal

A number in decimal consists of digits, with a minus sign in front of them if it is negative. **The
digits have the number as their value, so different numbers are written differently**, and there are
as many of them as the number asks for.
-/

namespace StateOwnership

namespace CodePoint

theorem hexDigit_val {n : Nat} (h : n < 10) : (hexDigit n).val = 0x30 + n := by
  have hsmall : 0x30 + n < 0x110000 := by omega
  simp [hexDigit, h, Fin.ofNat, Nat.mod_eq_of_lt hsmall]

theorem isAsciiDigit_hexDigit {n : Nat} (h : n < 10) : (hexDigit n).isAsciiDigit = true := by
  rw [isAsciiDigit, hexDigit_val h]
  simp only [Bool.and_eq_true, decide_eq_true_eq]
  omega

end CodePoint

namespace Text

section Digits

variable {fuel n k : Nat} {rest : Text}

theorem isAsciiDigit_of_mem_decimalDigits (hrest : ∀ c ∈ rest, c.isAsciiDigit = true) :
    ∀ c ∈ decimalDigits fuel n rest, c.isAsciiDigit = true := by
  induction fuel generalizing n rest with
  | zero => exact hrest
  | succ fuel ih =>
    rw [decimalDigits]
    split
    · rename_i hsmall
      exact List.forall_mem_cons.mpr ⟨CodePoint.isAsciiDigit_hexDigit hsmall, hrest⟩
    · have hlast := CodePoint.isAsciiDigit_hexDigit (Nat.mod_lt n (by decide : 0 < 10))
      exact ih (List.forall_mem_cons.mpr ⟨hlast, hrest⟩)

theorem decimalDigits_ne_nil (hrest : rest ≠ []) : decimalDigits fuel n rest ≠ [] := by
  induction fuel generalizing n rest with
  | zero => exact hrest
  | succ fuel ih =>
    rw [decimalDigits]
    split
    · exact List.cons_ne_nil _ _
    · exact ih (List.cons_ne_nil _ _)

-- The digits in front of others count for the number that they spell.
theorem foldl_decimalDigits (h : n < fuel) :
    (decimalDigits fuel n rest).foldl (fun m c => m * 10 + (c.val - 0x30)) 0 =
      rest.foldl (fun m c => m * 10 + (c.val - 0x30)) n := by
  induction fuel generalizing n rest with
  | zero => omega
  | succ fuel ih =>
    rw [decimalDigits]
    split
    · rename_i hsmall
      rw [List.foldl_cons, CodePoint.hexDigit_val hsmall]
      congr 1
      omega
    · rw [ih (by omega), List.foldl_cons, CodePoint.hexDigit_val (Nat.mod_lt n (by decide))]
      congr 1
      omega

-- Only zero starts with a zero.
theorem head?_decimalDigits (hfuel : n < fuel) (hn : 0 < n) :
    (decimalDigits fuel n rest).head? ≠ some 0x30 := by
  induction fuel generalizing n rest with
  | zero => omega
  | succ fuel ih =>
    rw [decimalDigits]
    split
    · rename_i hsmall
      intro hhead
      have hval := congrArg Fin.val (Option.some.inj hhead)
      rw [CodePoint.hexDigit_val hsmall] at hval
      have hzero : (0x30 : CodePoint).val = 0x30 := rfl
      omega
    · exact ih (by omega) (by omega)

theorem length_decimalDigits_le (hn : n < 10 ^ (k + 1)) :
    (decimalDigits fuel n rest).length ≤ k + 1 + rest.length := by
  induction fuel generalizing n k rest with
  | zero => exact Nat.le_add_left _ _
  | succ fuel ih =>
    rw [decimalDigits]
    split
    · rw [List.length_cons]
      omega
    · cases k with
      | zero => omega
      | succ k =>
        have hlast := @ih (n / 10) k (CodePoint.hexDigit (n % 10) :: rest) (by omega)
        rw [List.length_cons] at hlast
        omega

end Digits

theorem isAsciiDigit_of_mem_ofNat {n : Nat} : ∀ c ∈ ofNat n, c.isAsciiDigit = true :=
  isAsciiDigit_of_mem_decimalDigits (by simp)

theorem ofNat_ne_nil (n : Nat) : ofNat n ≠ [] := by
  rw [ofNat, decimalDigits]
  split
  · exact List.cons_ne_nil _ _
  · exact decimalDigits_ne_nil (List.cons_ne_nil _ _)

theorem decimalValue_ofNat (n : Nat) : decimalValue (ofNat n) = n :=
  foldl_decimalDigits (Nat.lt_succ_self n)

theorem ofNat_inj {n m : Nat} : ofNat n = ofNat m ↔ n = m := by
  refine ⟨fun h => ?_, fun h => h ▸ rfl⟩
  rw [← decimalValue_ofNat n, h, decimalValue_ofNat]

theorem head?_ofNat {n : Nat} (h : 0 < n) : (ofNat n).head? ≠ some 0x30 :=
  head?_decimalDigits (Nat.lt_succ_self n) h

theorem decimalValue_lt {digits : Text} (h : ∀ c ∈ digits, c.isAsciiDigit = true) :
    decimalValue digits < 10 ^ digits.length := by
  induction digits using List.reverseRecOn with
  | nil => exact Nat.one_pos
  | append_singleton init last ih =>
    have hinit := ih fun c hc => h c (List.mem_append_left _ hc)
    have hlast := h last (by simp)
    simp only [CodePoint.isAsciiDigit, Bool.and_eq_true, decide_eq_true_eq] at hlast
    have hvalue : decimalValue (init ++ [last]) = decimalValue init * 10 + (last.val - 0x30) := by
      rw [decimalValue, List.foldl_append]
      rfl
    rw [hvalue, List.length_append, List.length_singleton, Nat.pow_succ]
    omega

-- A number has as many digits as its size asks for.
theorem length_ofNat_le_iff {n k : Nat} (hk : 0 < k) : (ofNat n).length ≤ k ↔ n < 10 ^ k := by
  constructor
  · intro hlength
    have hlt := decimalValue_lt (isAsciiDigit_of_mem_ofNat (n := n))
    rw [decimalValue_ofNat] at hlt
    exact Nat.lt_of_lt_of_le hlt (Nat.pow_le_pow_right (by decide) hlength)
  · intro hn
    obtain ⟨m, rfl⟩ := Nat.exists_eq_add_one.mpr hk
    exact length_decimalDigits_le hn

-- No digit is a minus sign.
theorem ofNat_ne_cons_minus (n : Nat) (rest : Text) : ofNat n ≠ 0x2D :: rest := by
  intro h
  have hdigit := isAsciiDigit_of_mem_ofNat (n := n) 0x2D (h ▸ List.mem_cons_self)
  exact absurd hdigit (by decide)

/-- **Different integers are written differently.** -/
theorem ofInt_inj {i j : Int} : ofInt i = ofInt j ↔ i = j := by
  refine ⟨fun h => ?_, fun h => h ▸ rfl⟩
  cases i with
  | ofNat n =>
    cases j with
    | ofNat m => rw [ofNat_inj.mp h]
    | negSucc m => exact absurd h (ofNat_ne_cons_minus n _)
  | negSucc n =>
    cases j with
    | ofNat m => exact absurd h.symm (ofNat_ne_cons_minus m _)
    | negSucc m =>
      obtain ⟨-, hdigits⟩ := List.cons.inj h
      rw [Nat.succ.inj (ofNat_inj.mp hdigits)]

end Text
end StateOwnership
