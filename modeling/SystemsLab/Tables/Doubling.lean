import Mathlib.Data.List.Basic
import Mathlib.Algebra.Order.Ring.Nat
import Mathlib.Order.Lattice
import Mathlib.Logic.Function.Basic

namespace SystemsLab.Tables

variable {α : Type*} {first cap cap' needed moved peak i len : ℕ} {data data' : ℕ → α} {items : List α}

structure Doubled (next needed cap : ℕ) : Prop where
  le_cap : needed ≤ cap
  power : ∃ k, cap = next * 2 ^ k
  tight : cap = next ∨ cap < 2 * needed

lemma Doubled.refl (h : needed ≤ i) : Doubled i needed i := ⟨h, ⟨0, (Nat.mul_one i).symm⟩, .inl rfl⟩

lemma Doubled.twice (h : Doubled (i * 2) needed cap) (hi : i < needed) : Doubled i needed cap := by
  obtain ⟨k, hk⟩ := h.power
  refine ⟨h.le_cap, ⟨k + 1, ?_⟩, .inr ?_⟩
  · rw [hk, pow_succ, Nat.mul_comm (2 ^ k) 2, Nat.mul_assoc]
  · rcases h.tight with heq | hlt
    · omega
    · exact hlt

structure Grown (first cap moved peak : ℕ) : Prop where
  power : cap = 0 ∨ ∃ k, cap = first * 2 ^ k
  moved_le : moved ≤ cap
  cap_le : cap ≤ max first (2 * peak)

namespace Grown

lemma empty (first : ℕ) : Grown first 0 0 0 := ⟨.inl rfl, le_rfl, Nat.zero_le _⟩

lemma ask (h : Grown first cap moved peak) (needed : ℕ) : Grown first cap moved (max peak needed) := by
  refine ⟨h.power, h.moved_le, h.cap_le.trans ?_⟩
  exact max_le_max le_rfl (Nat.mul_le_mul_left 2 (le_max_left peak needed))

/-- A larger block pays for the items that are moved into it. -/
lemma grow (h : Grown first cap moved peak) (hfull : cap < needed)
    (hnext : Doubled (if cap = 0 then first else cap) needed cap') :
    Grown first cap' (moved + cap) (max peak needed) := by
  have hmoved := h.moved_le
  have hneeded := hnext.le_cap
  refine ⟨.inr ?_, ?_, ?_⟩
  · obtain ⟨k, hk⟩ := hnext.power
    split_ifs at hk with hzero
    · exact ⟨k, hk⟩
    · obtain hcap | ⟨j, hj⟩ := h.power
      · exact absurd hcap hzero
      · exact ⟨j + k, by rw [hk, hj, pow_add, Nat.mul_assoc]⟩
  · obtain ⟨k, hk⟩ := hnext.power
    split_ifs at hk with hzero
    · omega
    · cases k with
      | zero => omega
      | succ k =>
        have hpos : 1 ≤ 2 ^ k := Nat.one_le_two_pow
        have hle : cap * (2 * 1) ≤ cap * (2 ^ k * 2) := by
          apply Nat.mul_le_mul_left
          omega
        rw [hk, pow_succ]
        omega
  · have hmax : needed ≤ max peak needed := le_max_right peak needed
    rcases hnext.tight with heq | hlt
    · split_ifs at heq with hzero
      · rw [heq]
        exact le_max_left _ _
      · omega
    · exact (by omega : cap' ≤ 2 * max peak needed).trans (le_max_right _ _)

end Grown

def contents (data : ℕ → α) (len : ℕ) : List α := (List.range len).map data

@[simp] lemma length_contents (data : ℕ → α) (len : ℕ) : (contents data len).length = len := by
  rw [contents, List.length_map, List.length_range]

lemma contents_succ (data : ℕ → α) (len : ℕ) :
    contents data (len + 1) = contents data len ++ [data len] := by
  rw [contents, List.range_succ, List.map_append]
  rfl

lemma contents_update (a : α) (h : len ≤ i) :
    contents (Function.update data i a) len = contents data len := by
  apply List.map_congr_left
  intro j hj
  exact Function.update_of_ne (by rw [List.mem_range] at hj; omega) _ _

lemma contents_store (data : ℕ → α) (i : ℕ) (a : α) :
    contents (Function.update data i a) (i + 1) = contents data i ++ [a] := by
  rw [contents_succ, contents_update a le_rfl, Function.update_self]

lemma take_contents (h : i ≤ len) : (contents data len).take i = contents data i := by
  rw [contents, contents, ← List.map_take, List.take_range, Nat.min_eq_left h]

end SystemsLab.Tables
