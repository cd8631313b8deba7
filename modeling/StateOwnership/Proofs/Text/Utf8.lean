import StateOwnership.Text.Utf8

/-!
# Octets and the texts that they spell

In UTF-8 a code point that is no surrogate has one spelling, of one to four octets. **Octets are
decoded to a text if and only if that text is encoded to them**, so decoding fails exactly for octets
that no text is encoded to.
-/

namespace StateOwnership.Text

/-! ## 1. The spelling of a code point -/

/-- The octets that spell a code point: the first one tells their number by its leading ones, and the
others hold six binary digits each. -/
inductive Spelling (c : CodePoint) : Bytes → Prop where
  | one {b : UInt8} (hlt : c.val < 0x80) (hb : b.toNat = c.val) : Spelling c [b]
  | two {b d : UInt8} (hle : 0x80 ≤ c.val) (hlt : c.val < 0x800)
      (hb : b.toNat = 0xC0 + c.val / 0x40) (hd : d.toNat = 0x80 + c.val % 0x40) : Spelling c [b, d]
  | three {b d e : UInt8} (hle : 0x800 ≤ c.val) (hlt : c.val < 0x10000)
      (hsurrogate : c.isSurrogate = false) (hb : b.toNat = 0xE0 + c.val / 0x1000)
      (hd : d.toNat = 0x80 + c.val / 0x40 % 0x40) (he : e.toNat = 0x80 + c.val % 0x40) :
      Spelling c [b, d, e]
  | four {b d e f : UInt8} (hle : 0x10000 ≤ c.val) (hb : b.toNat = 0xF0 + c.val / 0x40000)
      (hd : d.toNat = 0x80 + c.val / 0x1000 % 0x40) (he : e.toNat = 0x80 + c.val / 0x40 % 0x40)
      (hf : f.toNat = 0x80 + c.val % 0x40) : Spelling c [b, d, e, f]

theorem isSurrogate_eq_false {c : CodePoint} :
    c.isSurrogate = false ↔ c.val < 0xD800 ∨ 0xDFFF < c.val := by
  simp only [CodePoint.isSurrogate, Bool.and_eq_false_iff, decide_eq_false_iff_not,
    Nat.not_le]

theorem isContinuation_iff {b : UInt8} :
    isContinuation b = true ↔ 0x80 ≤ b.toNat ∧ b.toNat ≤ 0xBF := by
  simp [isContinuation, UInt8.le_iff_toNat_le]

theorem isContinuation_eq_false {b : UInt8} :
    isContinuation b = false ↔ b.toNat < 0x80 ∨ 0xBF < b.toNat := by
  rw [← Bool.not_eq_true, isContinuation_iff]
  omega

theorem ofNat_eq_of_toNat {b : UInt8} {n : Nat} (h : b.toNat = n) : UInt8.ofNat n = b := by
  rw [← h, UInt8.ofNat_toNat]

-- A spelling is the one that encoding gives, and no surrogate has one.
theorem Spelling.utf8Octets_eq {c : CodePoint} {octets : Bytes} (h : Spelling c octets) :
    utf8Octets c = octets := by
  cases h with
  | one hlt hb => simp [utf8Octets, hlt, ofNat_eq_of_toNat hb]
  | two hle hlt hb hd =>
    simp [utf8Octets, Nat.not_lt.mpr hle, hlt, ofNat_eq_of_toNat hb, ofNat_eq_of_toNat hd]
  | three hle hlt hsurrogate hb hd he =>
    have hnot : ¬ c.val < 0x80 := by omega
    simp [utf8Octets, hnot, Nat.not_lt.mpr hle, hlt, ofNat_eq_of_toNat hb, ofNat_eq_of_toNat hd,
      ofNat_eq_of_toNat he]
  | four hle hb hd he hf =>
    have hnot : ¬ c.val < 0x80 ∧ ¬ c.val < 0x800 := by omega
    simp [utf8Octets, hnot, Nat.not_lt.mpr hle, ofNat_eq_of_toNat hb, ofNat_eq_of_toNat hd,
      ofNat_eq_of_toNat he, ofNat_eq_of_toNat hf]

theorem Spelling.isSurrogate_eq {c : CodePoint} {octets : Bytes} (h : Spelling c octets) :
    c.isSurrogate = false := by
  cases h with
  | three hle hlt hsurrogate => exact hsurrogate
  | _ => rw [isSurrogate_eq_false]; omega

theorem spelling_utf8Octets {c : CodePoint} (hc : c.isSurrogate = false) :
    Spelling c (utf8Octets c) := by
  have hlt := c.isLt
  simp only [utf8Octets]
  split
  · exact .one (by omega) (UInt8.toNat_ofNat_of_lt' (by simp [UInt8.size]; omega))
  split
  · refine .two (by omega) (by omega) ?_ ?_ <;>
      exact UInt8.toNat_ofNat_of_lt' (by simp [UInt8.size]; omega)
  split
  · refine .three (by omega) (by omega) hc ?_ ?_ ?_ <;>
      exact UInt8.toNat_ofNat_of_lt' (by simp [UInt8.size]; omega)
  · refine .four (by omega) ?_ ?_ ?_ ?_ <;>
      exact UInt8.toNat_ofNat_of_lt' (by simp [UInt8.size]; omega)

theorem codePointOf_val {n : Nat} (h : n < 0x110000) : (codePointOf n).val = n :=
  Nat.mod_eq_of_lt h

theorem codePointOf_eq {c : CodePoint} {n : Nat} (h : c.val = n) : codePointOf n = c := by
  rw [← h]
  exact Fin.ofNat_val_eq_self c

-- The first octet tells how many there are.
theorem utf8Head_of_spelling {c : CodePoint} {b : UInt8} {more behind : Bytes}
    (h : Spelling c (b :: more)) :
    utf8Head .refuse b (more ++ behind) = .ok (c, more.length) := by
  have hc := h.isSurrogate_eq
  have hbound := c.isLt
  rw [isSurrogate_eq_false] at hc
  cases h with
  | one hlt hb =>
    have hfirst : b < 0x80 := UInt8.lt_iff_toNat_lt.mpr (hb ▸ hlt)
    simp [utf8Head, hfirst, codePointOf_eq hb.symm]
  | @two _ d hle hlt hb hd =>
    have hfirst : ¬ b < 0x80 ∧ ¬ b < 0xC2 ∧ b < 0xE0 := by
      simp only [UInt8.lt_iff_toNat_lt, UInt8.reduceToNat]
      omega
    have hcont : isContinuation d = true := isContinuation_iff.mpr (by omega)
    have hval : c.val = (b.toNat - 0xC0) * 0x40 + (d.toNat - 0x80) := by omega
    simp [utf8Head, hfirst, hcont, codePointOf_eq hval]
  | @three _ d e hle hlt hsurrogate hb hd he =>
    have hfirst : ¬ b < 0x80 ∧ ¬ b < 0xC2 ∧ ¬ b < 0xE0 ∧ b < 0xF0 := by
      simp only [UInt8.lt_iff_toNat_lt, UInt8.reduceToNat]
      omega
    have hcont : isContinuation d = true ∧ isContinuation e = true :=
      ⟨isContinuation_iff.mpr (by omega), isContinuation_iff.mpr (by omega)⟩
    have hsecond : (¬ b = 0xE0 ∨ 0xA0 ≤ d) ∧ (¬ b = 0xED ∨ d < 0xA0) := by
      simp only [UInt8.lt_iff_toNat_lt, UInt8.le_iff_toNat_le, ← UInt8.toNat_inj,
        UInt8.reduceToNat]
      omega
    have hval : c.val =
        (b.toNat - 0xE0) * 0x1000 + (d.toNat - 0x80) * 0x40 + (e.toNat - 0x80) := by omega
    simp [utf8Head, hfirst, hcont, hsecond, codePointOf_eq hval]
  | @four _ d e f hle hb hd he hf =>
    have hfirst : ¬ b < 0x80 ∧ ¬ b < 0xC2 ∧ ¬ b < 0xE0 ∧ ¬ b < 0xF0 ∧ b < 0xF5 := by
      simp only [UInt8.lt_iff_toNat_lt, UInt8.reduceToNat]
      omega
    have hcont : isContinuation d = true ∧ isContinuation e = true ∧ isContinuation f = true :=
      ⟨isContinuation_iff.mpr (by omega), isContinuation_iff.mpr (by omega),
        isContinuation_iff.mpr (by omega)⟩
    have hsecond : (b = 0xF0 → 0x90 ≤ d) ∧ (b = 0xF4 → d < 0x90) := by
      simp only [UInt8.lt_iff_toNat_lt, UInt8.le_iff_toNat_le, ← UInt8.toNat_inj,
        UInt8.reduceToNat]
      omega
    have hval : c.val = (b.toNat - 0xF0) * 0x40000 + (d.toNat - 0x80) * 0x1000 +
        (e.toNat - 0x80) * 0x40 + (f.toNat - 0x80) := by omega
    simpa [utf8Head, hfirst, hcont, codePointOf_eq hval] using hsecond

-- Octets in the ranges that decoding asks for spell the code point that they are decoded to.
theorem spelling_two {b d : UInt8} (hlow : 0xC2 ≤ b.toNat) (hhigh : b.toNat < 0xE0)
    (hd : 0x80 ≤ d.toNat ∧ d.toNat ≤ 0xBF) :
    Spelling (codePointOf ((b.toNat - 0xC0) * 0x40 + (d.toNat - 0x80))) [b, d] := by
  have hval := codePointOf_val (n := (b.toNat - 0xC0) * 0x40 + (d.toNat - 0x80)) (by omega)
  exact .two (by omega) (by omega) (by omega) (by omega)

theorem spelling_three {b d e : UInt8} (hlow : 0xE0 ≤ b.toNat) (hhigh : b.toNat < 0xF0)
    (hd : 0x80 ≤ d.toNat ∧ d.toNat ≤ 0xBF) (hoverlong : ¬ b.toNat = 0xE0 ∨ 0xA0 ≤ d.toNat)
    (hsurrogate : ¬ b.toNat = 0xED ∨ d.toNat < 0xA0) (he : 0x80 ≤ e.toNat ∧ e.toNat ≤ 0xBF) :
    Spelling (codePointOf ((b.toNat - 0xE0) * 0x1000 + (d.toNat - 0x80) * 0x40 + (e.toNat - 0x80)))
      [b, d, e] := by
  have hval := codePointOf_val
    (n := (b.toNat - 0xE0) * 0x1000 + (d.toNat - 0x80) * 0x40 + (e.toNat - 0x80)) (by omega)
  refine .three (by omega) (by omega) ?_ (by omega) (by omega) (by omega)
  rw [isSurrogate_eq_false]
  omega

theorem spelling_four {b d e f : UInt8} (hlow : 0xF0 ≤ b.toNat) (hhigh : b.toNat < 0xF5)
    (hd : 0x80 ≤ d.toNat ∧ d.toNat ≤ 0xBF) (hoverlong : ¬ b.toNat = 0xF0 ∨ 0x90 ≤ d.toNat)
    (hbeyond : ¬ b.toNat = 0xF4 ∨ d.toNat < 0x90) (he : 0x80 ≤ e.toNat ∧ e.toNat ≤ 0xBF)
    (hf : 0x80 ≤ f.toNat ∧ f.toNat ≤ 0xBF) :
    Spelling (codePointOf ((b.toNat - 0xF0) * 0x40000 + (d.toNat - 0x80) * 0x1000 +
      (e.toNat - 0x80) * 0x40 + (f.toNat - 0x80))) [b, d, e, f] := by
  have hval := codePointOf_val (n := (b.toNat - 0xF0) * 0x40000 + (d.toNat - 0x80) * 0x1000 +
    (e.toNat - 0x80) * 0x40 + (f.toNat - 0x80)) (by omega)
  exact .four (by omega) (by omega) (by omega) (by omega) (by omega)

-- What is decoded to a code point spells it.
theorem spelling_of_utf8Head {c : CodePoint} {b : UInt8} {rest : Bytes} {width : Nat}
    (h : utf8Head .refuse b rest = .ok (c, width)) :
    ∃ more behind, rest = more ++ behind ∧ more.length = width ∧ Spelling c (b :: more) := by
  simp only [utf8Head, UInt8.lt_iff_toNat_lt, UInt8.le_iff_toNat_le, UInt8.reduceToNat,
    ← UInt8.toNat_inj, bne_iff_ne, ne_eq, Bool.and_eq_true, Bool.or_eq_true, decide_eq_true_eq,
    Bool.not_eq_true', Bool.and_eq_false_iff, Bool.or_eq_false_iff, bne_eq_false_iff_eq,
    decide_eq_false_iff_not, reduceCtorEq, decide_false, Bool.false_and, Bool.false_eq_true, if_false,
    isContinuation_iff, isContinuation_eq_false] at h
  split at h
  · obtain ⟨rfl, rfl⟩ := Prod.mk.inj (Except.ok.inj h)
    exact ⟨[], rest, rfl, rfl, .one (by rwa [codePointOf_val (by omega)])
      (codePointOf_val (by omega)).symm⟩
  split at h
  · simp at h
  split at h
  · match rest, h with
    | d :: behind, h =>
      dsimp only at h
      split at h
      · rename_i hd
        obtain ⟨rfl, rfl⟩ := Prod.mk.inj (Except.ok.inj h)
        exact ⟨[d], behind, rfl, rfl, spelling_two (by omega) (by omega) hd⟩
      · simp at h
  split at h
  · match rest, h with
    | [d], h =>
      dsimp only at h
      split at h <;> simp at h
    | d :: e :: behind, h =>
      dsimp only at h
      split at h
      · rename_i hd
        split at h
        · rename_i he
          obtain ⟨rfl, rfl⟩ := Prod.mk.inj (Except.ok.inj h)
          exact ⟨[d, e], behind, rfl, rfl,
            spelling_three (by omega) (by omega) hd.1.1 hd.1.2 hd.2 he⟩
        · simp at h
      · simp at h
  split at h
  · match rest, h with
    | [d], h =>
      dsimp only at h
      split at h <;> simp at h
    | [d, e], h =>
      dsimp only at h
      split at h
      · simp at h
      · split at h <;> simp at h
    | d :: e :: f :: behind, h =>
      dsimp only at h
      split at h
      · simp at h
      split at h
      · simp at h
      split at h
      · rename_i hf
        obtain ⟨rfl, rfl⟩ := Prod.mk.inj (Except.ok.inj h)
        exact ⟨[d, e, f], behind, rfl, rfl, spelling_four (by omega) (by omega) (by omega)
          (by omega) (by omega) (by omega) hf⟩
      · simp at h
  · simp at h

/-! ## 2. The spelling of a text -/

theorem surrogateFaultFrom_eq_none {allowed : CodePoint → Bool} (position : Nat) {t : Text} :
    surrogateFaultFrom allowed position t = none ↔
      ∀ c ∈ t, (c.isSurrogate && !allowed c) = false := by
  induction t generalizing position with
  | nil => simp [surrogateFaultFrom]
  | cons c rest ih =>
    rw [surrogateFaultFrom, List.forall_mem_cons]
    cases h : c.isSurrogate && !allowed c with
    | true => simp
    | false => simp [ih]

theorem encodeUtf8_eq_ok {t : Text} {octets : Bytes} : encodeUtf8 t = .ok octets ↔
    (∀ c ∈ t, c.isSurrogate = false) ∧ t.flatMap utf8Octets = octets := by
  have hnone : surrogateFaultFrom (fun _ => false) 0 t = none ↔
      ∀ c ∈ t, (c.isSurrogate && !false) = false := surrogateFaultFrom_eq_none 0
  simp only [Bool.not_false, Bool.and_true] at hnone
  rw [← hnone, encodeUtf8]
  cases surrogateFaultFrom (fun _ => false) 0 t <;> simp

-- Octets that belong to a code point that was read already are passed over.
theorem utf8From_skip (position : Nat) (more behind : Bytes) :
    utf8From .refuse more.length position (more ++ behind) =
      utf8From .refuse 0 (position + more.length) behind := by
  induction more generalizing position with
  | nil => rfl
  | cons b rest ih =>
    rw [List.length_cons, List.cons_append, utf8From, ih]
    congr 1
    omega

theorem utf8From_of_spelling {c : CodePoint} {b : UInt8} {more : Bytes}
    (h : Spelling c (b :: more)) (position : Nat) (behind : Bytes) :
    utf8From .refuse 0 position (b :: more ++ behind) =
      (utf8From .refuse 0 (position + 1 + more.length) behind).map (c :: ·) := by
  rw [List.cons_append, utf8From, utf8Head_of_spelling h]
  exact congrArg (Except.map (c :: ·)) (utf8From_skip (position + 1) more behind)

theorem utf8From_of_octets (position : Nat) {t : Text} (h : ∀ c ∈ t, c.isSurrogate = false) :
    utf8From .refuse 0 position (t.flatMap utf8Octets) = .ok t := by
  induction t generalizing position with
  | nil => rfl
  | cons c rest ih =>
    rw [List.forall_mem_cons] at h
    have hspelling := spelling_utf8Octets h.1
    rw [List.flatMap_cons]
    cases hoctets : utf8Octets c with
    | nil =>
      rw [hoctets] at hspelling
      cases hspelling
    | cons b more =>
      rw [hoctets] at hspelling
      rw [utf8From_of_spelling hspelling, ih _ h.2]
      rfl

theorem octets_of_utf8From {position : Nat} {octets : Bytes} {t : Text}
    (h : utf8From .refuse 0 position octets = .ok t) :
    (∀ c ∈ t, c.isSurrogate = false) ∧ t.flatMap utf8Octets = octets := by
  -- A code point can take several octets, so the induction is on how many there are.
  induction hlength : octets.length using Nat.strongRecOn generalizing position octets t with
  | ind length ih =>
    cases octets with
    | nil =>
      obtain rfl : t = [] := (Except.ok.inj h).symm
      simp
    | cons b rest =>
      cases hhead : utf8Head .refuse b rest with
      | error fault => simp [utf8From, hhead] at h
      | ok found =>
        obtain ⟨c, width⟩ := found
        obtain ⟨more, behind, rfl, rfl, hspelling⟩ := spelling_of_utf8Head hhead
        rw [← List.cons_append, utf8From_of_spelling hspelling] at h
        cases hrest : utf8From .refuse 0 (position + 1 + more.length) behind with
        | error fault => simp [hrest, Except.map] at h
        | ok u =>
          rw [hrest] at h
          obtain rfl : t = c :: u := (Except.ok.inj h).symm
          simp only [List.length_cons, List.length_append] at hlength
          obtain ⟨hu, hbehind⟩ := ih behind.length (by omega) hrest rfl
          refine ⟨List.forall_mem_cons.mpr ⟨hspelling.isSurrogate_eq, hu⟩, ?_⟩
          rw [List.flatMap_cons, hbehind, hspelling.utf8Octets_eq, List.cons_append]

/-- **Octets are decoded to a text if and only if the text is encoded to them.** -/
theorem decodeUtf8_eq_ok {octets : Bytes} {t : Text} :
    decodeUtf8 .refuse octets = .ok t ↔ encodeUtf8 t = .ok octets := by
  rw [encodeUtf8_eq_ok]
  constructor
  · exact octets_of_utf8From
  · rintro ⟨ht, rfl⟩
    exact utf8From_of_octets 0 ht

end StateOwnership.Text
