import Mathlib.Data.List.Basic
import Mathlib.Algebra.Order.Group.Nat

namespace SystemsLab.Tables

variable {α : Type*} {cells cells' : List α} {dst src lo hi lo' hi' i len : ℕ}

def copyCell (dst src : ℕ) (cells : List α) (i : ℕ) : List α :=
  (cells[src + i]?).elim cells (cells.set (dst + i))

structure Copied (cells : List α) (dst src lo hi : ℕ) (cells' : List α) : Prop where
  length_eq : cells'.length = cells.length
  inside : ∀ i, lo ≤ i → i < hi → cells'[dst + i]? = cells[src + i]?
  outside : ∀ j, (∀ i, lo ≤ i → i < hi → j ≠ dst + i) → cells'[j]? = cells[j]?

lemma Copied.refl (cells : List α) (dst src lo : ℕ) : Copied cells dst src lo lo cells where
  length_eq := rfl
  inside _ hlo hhi := absurd hhi (not_lt.mpr hlo)
  outside _ _ := rfl

lemma Copied.cell (h : Copied cells dst src lo hi cells') (hsrc : src + i < cells.length)
    (hdst : dst + i < cells.length) (hunread : ∀ k, lo ≤ k → k < hi → src + i ≠ dst + k)
    (hjoin : ∀ k, lo' ≤ k ∧ k < hi' ↔ (lo ≤ k ∧ k < hi) ∨ k = i) :
    Copied cells dst src lo' hi' (copyCell dst src cells' i) := by
  have hread : cells'[src + i]? = some cells[src + i] := by
    rw [h.outside _ hunread, List.getElem?_eq_getElem hsrc]
  rw [copyCell, hread, Option.elim_some]
  refine ⟨by rw [List.length_set, h.length_eq], fun k hlo hhi => ?_, fun j hj => ?_⟩
  · rw [List.getElem?_set]
    by_cases hk : i = k
    · subst hk
      rw [if_pos rfl, if_pos (by rw [h.length_eq]; exact hdst), List.getElem?_eq_getElem hsrc]
    · rw [if_neg (by omega)]
      rcases (hjoin k).mp ⟨hlo, hhi⟩ with hold | heq
      · exact h.inside k hold.1 hold.2
      · exact absurd heq.symm hk
  · have hnew := (hjoin i).mpr (Or.inr rfl)
    rw [List.getElem?_set, if_neg (Ne.symm (hj i hnew.1 hnew.2))]
    refine h.outside j fun k hlo hhi => ?_
    have hold := (hjoin k).mpr (Or.inl ⟨hlo, hhi⟩)
    exact hj k hold.1 hold.2

lemma copied_up (hlt : dst < src) (hlen : src + len ≤ cells.length) :
    Copied cells dst src 0 len ((List.range len).foldl (copyCell dst src) cells) := by
  induction len with
  | zero => exact .refl cells dst src 0
  | succ len ih =>
    rw [List.range_succ, List.foldl_append]
    refine (ih (by omega)).cell (by omega) (by omega) ?_ ?_
    · intro k _ hk
      omega
    · intro k
      omega

lemma copied_down_from (hlt : src < dst) (hlen : dst + len ≤ cells.length)
    (h : Copied cells dst src i len cells') (hi : i ≤ len) :
    Copied cells dst src 0 len ((List.range i).reverse.foldl (copyCell dst src) cells') := by
  induction i generalizing cells' with
  | zero => exact h
  | succ i ih =>
    rw [List.range_succ, List.reverse_append, List.reverse_singleton, List.singleton_append,
      List.foldl_cons]
    refine ih (h.cell (by omega) (by omega) ?_ ?_) (by omega)
    · intro k hk _
      omega
    · intro k
      omega

lemma copied_down (hlt : src < dst) (hlen : dst + len ≤ cells.length) :
    Copied cells dst src 0 len ((List.range len).reverse.foldl (copyCell dst src) cells) :=
  copied_down_from hlt hlen (.refl cells dst src len) le_rfl

lemma Copied.range_eq (h : Copied cells dst src 0 len cells') :
    (cells'.drop dst).take len = (cells.drop src).take len := by
  apply List.ext_getElem?
  intro i
  rw [List.getElem?_take, List.getElem?_take, List.getElem?_drop, List.getElem?_drop]
  split_ifs with hi
  · exact h.inside i (Nat.zero_le i) hi
  · rfl

end SystemsLab.Tables
