import Mathlib.Algebra.Order.Ring.Nat
import Mathlib.Data.List.TakeWhile
import Mathlib.Tactic.Ring

namespace SystemsLab.CLib

abbrev Bytes := List UInt8

def ascii (s : String) : Bytes := s.toList.map fun c => UInt8.ofNat c.toNat

def cstr (b : Bytes) : Bytes := b.takeWhile (· ≠ 0)

/-- The memory of `k` bytes that holds `n`, least significant byte first. -/
def leBytes : ℕ → ℕ → Bytes
  | 0, _ => []
  | k + 1, n => UInt8.ofNat n :: leBytes k (n / 256)

def ofLeBytes : Bytes → ℕ
  | [] => 0
  | b :: bs => b.toNat + 256 * ofLeBytes bs

@[simp] lemma length_leBytes (k n : ℕ) : (leBytes k n).length = k := by
  induction k generalizing n with
  | zero => rfl
  | succ k ih => simp [leBytes, ih]

lemma ofLeBytes_leBytes (k n : ℕ) : ofLeBytes (leBytes k n) = n % 256 ^ k := by
  induction k generalizing n with
  | zero => simp [leBytes, ofLeBytes, Nat.mod_one]
  | succ k ih =>
    have hb : (UInt8.ofNat n).toNat = n % 256 := by simp
    rw [leBytes, ofLeBytes, ih, hb, pow_succ']
    exact (Nat.mod_mul).symm

lemma ofLeBytes_of_lt {k n : ℕ} (h : n < 256 ^ k) : ofLeBytes (leBytes k n) = n := by
  rw [ofLeBytes_leBytes, Nat.mod_eq_of_lt h]

lemma leBytes_ofLeBytes (b : Bytes) : leBytes b.length (ofLeBytes b) = b := by
  induction b with
  | nil => rfl
  | cons x b ih =>
    have hx : x.toNat < 256 := x.toNat_lt
    have hmod : (x.toNat + 256 * ofLeBytes b) % 256 = x.toNat := by omega
    have hdiv : (x.toNat + 256 * ofLeBytes b) / 256 = ofLeBytes b := by omega
    have hhead : UInt8.ofNat (x.toNat + 256 * ofLeBytes b) = x := by
      apply UInt8.toNat_inj.mp
      simp only [UInt8.toNat_ofNat', hmod]
    rw [List.length_cons, leBytes, ofLeBytes, hdiv, hhead, ih]

lemma ofLeBytes_lt (b : Bytes) : ofLeBytes b < 256 ^ b.length := by
  have h := ofLeBytes_leBytes b.length (ofLeBytes b)
  rw [leBytes_ofLeBytes] at h
  rw [h]
  exact Nat.mod_lt _ (Nat.pow_pos (by decide))

lemma cstr_eq_self {b : Bytes} (h : (0 : UInt8) ∉ b) : cstr b = b := by
  rw [cstr, List.takeWhile_eq_self_iff]
  intro c hc
  simp only [decide_eq_true_eq]
  rintro rfl
  exact h hc

lemma cstr_append_nul {b : Bytes} (h : (0 : UInt8) ∉ b) (r : Bytes) : cstr (b ++ 0 :: r) = b := by
  rw [cstr, List.takeWhile_append_of_pos]
  · simp
  · intro c hc
    simp only [decide_eq_true_eq]
    rintro rfl
    exact h hc

end SystemsLab.CLib
