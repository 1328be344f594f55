import SystemsLab.CLib.Numerals

namespace SystemsLab.CLib

def digit (n : ℕ) : UInt8 := UInt8.ofNat (48 + n % 10)

def decimal (n : ℕ) : Bytes :=
  if n < 10 then [digit n] else decimal (n / 10) ++ [digit n]

variable {n m : ℕ}

lemma decimal_small (h : n < 10) : decimal n = [digit n] := by
  rw [decimal, if_pos h]

lemma decimal_big (h : ¬ n < 10) : decimal n = decimal (n / 10) ++ [digit n] := by
  rw [decimal, if_neg h]

lemma toNat_digit (n : ℕ) : (digit n).toNat = 48 + n % 10 := by
  rw [digit, UInt8.toNat_ofNat']
  omega

lemma isDigit_digit (n : ℕ) : isDigit (digit n) = true := by
  rw [isDigit, Bool.and_eq_true, decide_eq_true_eq, decide_eq_true_eq, UInt8.le_iff_toNat_le,
    UInt8.le_iff_toNat_le, toNat_digit]
  exact ⟨Nat.le_add_right 48 _, by have := Nat.mod_lt n (show 0 < 10 by decide); simp; omega⟩

lemma digits_decimal (n : ℕ) : Digits (decimal n) := by
  induction n using Nat.strong_induction_on with
  | _ n ih =>
    by_cases h : n < 10
    · rw [decimal_small h]
      refine ⟨List.cons_ne_nil _ _, fun c hc => ?_⟩
      rw [List.mem_singleton.mp hc]
      exact isDigit_digit n
    · rw [decimal_big h]
      refine ⟨by simp, fun c hc => ?_⟩
      rcases List.mem_append.mp hc with hc | hc
      · exact (ih (n / 10) (by omega)).isDigit c hc
      · rw [List.mem_singleton.mp hc]
        exact isDigit_digit n

lemma digitsValue_concat (t : Bytes) (c : UInt8) :
    digitsValue (t ++ [c]) = 10 * digitsValue t + (c.toNat - 48) := by
  rw [digitsValue, List.foldl_append]
  rfl

lemma digitsValue_decimal (n : ℕ) : digitsValue (decimal n) = n := by
  induction n using Nat.strong_induction_on with
  | _ n ih =>
    by_cases h : n < 10
    · rw [decimal_small h, ← List.nil_append [digit n], digitsValue_concat, toNat_digit]
      change 10 * 0 + (48 + n % 10 - 48) = n
      omega
    · rw [decimal_big h, digitsValue_concat, ih (n / 10) (by omega), toNat_digit]
      omega

end SystemsLab.CLib
