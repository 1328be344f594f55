import SystemsLab.CLib.Numbers

namespace SystemsLab.CLib

structure Digits (t : Bytes) : Prop where
  ne_nil : t ≠ []
  isDigit : ∀ c ∈ t, isDigit c = true

inductive Denotes : Bytes → ℤ → Prop
  | digits {t : Bytes} (h : Digits t) : Denotes t (digitsValue t)
  | plus {t : Bytes} (h : Digits t) : Denotes (43 :: t) (digitsValue t)
  | minus {t : Bytes} (h : Digits t) : Denotes (45 :: t) (-digitsValue t)
  | blank {c : UInt8} {s : Bytes} {z : ℤ} (hc : isSpace c = true) (h : Denotes s z) :
    Denotes (c :: s) z

def signed (negative : Bool) (n : ℕ) : ℤ := if negative then -n else n

def unsigned (s : Bytes) : Bool × Bytes := splitSign (s.dropWhile isSpace)

variable {s t : Bytes} {c : UInt8} {z : ℤ}

lemma digits_of_all (hne : t ≠ []) (h : t.all isDigit = true) : Digits t :=
  ⟨hne, List.all_eq_true.mp h⟩

lemma isSpace_of_isDigit (h : isDigit c = true) : isSpace c = false := by
  simp only [isDigit, isSpace, Bool.and_eq_true, decide_eq_true_eq, Bool.or_eq_false_iff,
    beq_eq_false_iff_ne, Bool.and_eq_false_iff, decide_eq_false_iff_not, UInt8.le_iff_toNat_le,
    ne_eq, ← UInt8.toNat_inj, UInt8.reduceToNat] at h ⊢
  omega

lemma splitSign_digit (h : isDigit c = true) : splitSign (c :: s) = (false, c :: s) := by
  have hminus : c ≠ 45 := by
    rintro rfl
    exact absurd h (by decide)
  have hplus : c ≠ 43 := by
    rintro rfl
    exact absurd h (by decide)
  simp [splitSign, hminus, hplus]

lemma unsigned_digits (h : Digits t) : unsigned t = (false, t) := by
  obtain ⟨hne, hdigit⟩ := h
  cases t with
  | nil => exact absurd rfl hne
  | cons c t =>
    have hc := hdigit c List.mem_cons_self
    rw [unsigned, List.dropWhile_cons_of_neg (by simp [isSpace_of_isDigit hc]), splitSign_digit hc]

lemma unsigned_blank (hc : isSpace c = true) : unsigned (c :: s) = unsigned s := by
  rw [unsigned, List.dropWhile_cons_of_pos hc, unsigned]

lemma unsigned_split (hc : isSpace c = false) : unsigned (c :: s) = splitSign (c :: s) := by
  rw [unsigned, List.dropWhile_cons_of_neg (by simp [hc])]

lemma denotes_iff : Denotes s z ↔
    Digits (unsigned s).2 ∧ z = signed (unsigned s).1 (digitsValue (unsigned s).2) := by
  constructor
  · intro h
    induction h with
    | digits h =>
      rw [unsigned_digits h]
      exact ⟨h, rfl⟩
    | plus h => exact ⟨h, rfl⟩
    | minus h => exact ⟨h, rfl⟩
    | blank hc h ih => rwa [unsigned_blank hc]
  · rintro ⟨hdigits, rfl⟩
    induction s with
    | nil => exact absurd rfl hdigits.ne_nil
    | cons c s ih =>
      rcases Bool.eq_false_or_eq_true (isSpace c) with hc | hc
      · rw [unsigned_blank hc] at hdigits ⊢
        exact .blank hc (ih hdigits)
      · rw [unsigned_split hc, splitSign] at hdigits ⊢
        by_cases hminus : c = 45
        · subst hminus
          exact .minus hdigits
        · rw [if_neg hminus] at hdigits ⊢
          by_cases hplus : c = 43
          · subst hplus
            exact .plus hdigits
          · rw [if_neg hplus] at hdigits ⊢
            exact .digits hdigits

lemma Denotes.unique {z' : ℤ} (h : Denotes s z) (h' : Denotes s z') : z = z' :=
  (denotes_iff.mp h).2.trans (denotes_iff.mp h').2.symm

lemma takeWhile_digits (h : Digits t) : t.takeWhile isDigit = t := by
  rw [List.takeWhile_eq_self_iff]
  exact h.isDigit

lemma dropWhile_digits (h : Digits t) : t.dropWhile isDigit = [] := by
  rw [List.dropWhile_eq_nil_iff]
  exact h.isDigit

lemma Denotes.ne_nil (h : Denotes s z) : s ≠ [] := by
  cases h with
  | digits h => exact h.ne_nil
  | plus h => exact List.cons_ne_nil _ _
  | minus h => exact List.cons_ne_nil _ _
  | blank hc h => exact List.cons_ne_nil _ _

lemma strtoull_of_denotes (h : Denotes s z) :
    strtoull s = if z.natAbs > ullongMax then ⟨ullongMax, [], true⟩
      else ⟨(z % 2 ^ 64).toNat, [], false⟩ := by
  obtain ⟨hdigits, rfl⟩ := denotes_iff.mp h
  rw [unsigned] at hdigits ⊢
  cases hsplit : splitSign (s.dropWhile isSpace) with
  | mk negative t =>
    rw [hsplit] at hdigits
    simp only [strtoull, hsplit, takeWhile_digits hdigits, dropWhile_digits hdigits,
      if_neg hdigits.ne_nil]
    cases negative with
    | false =>
      simp only [signed, Bool.false_eq_true, if_false, Int.natAbs_natCast]
      split_ifs with hbig
      · rfl
      · congr 1
        simp only [ullongMax] at hbig
        omega
    | true =>
      simp only [signed, if_true, Int.natAbs_neg, Int.natAbs_natCast]
      split_ifs with hbig
      · rfl
      · congr 1
        simp only [ullongMax] at hbig
        omega

lemma strtoll_of_denotes (h : Denotes s z) :
    (strtoll s).value = max (-2 ^ 63) (min z (2 ^ 63 - 1)) ∧ (strtoll s).rest = [] := by
  obtain ⟨hdigits, hz⟩ := denotes_iff.mp h
  rw [unsigned] at hdigits hz
  cases hsplit : splitSign (s.dropWhile isSpace) with
  | mk negative t =>
    rw [hsplit] at hdigits hz
    simp only [strtoll, hsplit, takeWhile_digits hdigits, dropWhile_digits hdigits,
      if_neg hdigits.ne_nil]
    simp only [signed] at hz
    rw [← hz]
    split_ifs with hhigh hlow
    all_goals
      refine ⟨?_, rfl⟩
      dsimp only
      omega

lemma exists_denotes (hdigits : (unsigned s).2.takeWhile isDigit ≠ [])
    (hend : (unsigned s).2.dropWhile isDigit = []) : ∃ z, Denotes s z := by
  refine ⟨_, denotes_iff.mpr ⟨⟨?_, List.dropWhile_eq_nil_iff.mp hend⟩, rfl⟩⟩
  intro hnil
  rw [hnil] at hdigits
  exact hdigits rfl

lemma denotes_of_strtoull (hend : (strtoull s).rest = []) (hread : (strtoull s).rest ≠ s) :
    ∃ z, Denotes s z := by
  simp only [strtoull] at hend hread
  split_ifs at hend hread with hdigits
  · exact absurd rfl hread
  all_goals exact exists_denotes hdigits hend

lemma denotes_of_strtoll (hend : (strtoll s).rest = []) (hread : (strtoll s).rest ≠ s) :
    ∃ z, Denotes s z := by
  simp only [strtoll] at hend hread
  split_ifs at hend hread with hdigits
  · exact absurd rfl hread
  all_goals exact exists_denotes hdigits hend

end SystemsLab.CLib
