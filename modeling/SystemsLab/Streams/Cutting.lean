import Mathlib.Data.List.Basic
import Mathlib.Algebra.Order.Group.Nat
import Mathlib.Algebra.BigOperators.Group.List.Basic
import Mathlib.Algebra.Order.BigOperators.Group.List

namespace SystemsLab.Streams

variable {α : Type*} {n : ℕ} {stream : List α} {pieces pieces' : List (List α)} {p : α → Bool}

structure Cut (n : ℕ) (stream : List α) (pieces : List (List α)) : Prop where
  flatten : pieces.flatten = stream
  ne_nil : ∀ piece ∈ pieces, piece ≠ []
  length_le : ∀ piece ∈ pieces, piece.length ≤ n

lemma length_flatten_le (h : ∀ piece ∈ pieces, piece.length ≤ n) :
    pieces.flatten.length ≤ n * pieces.length := by
  have hsum := List.sum_le_card_nsmul (pieces.map List.length) n (List.forall_mem_map.mpr h)
  rwa [← List.length_flatten, List.length_map, Nat.nsmul_eq_mul, Nat.mul_comm] at hsum

lemma length_flatten_eq (h : ∀ piece ∈ pieces, piece.length = n) :
    pieces.flatten.length = n * pieces.length := by
  have hsum := List.sum_eq_card_nsmul (pieces.map List.length) n (List.forall_mem_map.mpr h)
  rwa [← List.length_flatten, List.length_map, Nat.nsmul_eq_mul, Nat.mul_comm] at hsum

lemma length_eq_of_flatten (h : ∀ piece ∈ pieces, piece.length ≤ n)
    (hfull : n * pieces.length ≤ pieces.flatten.length) : ∀ piece ∈ pieces, piece.length = n := by
  induction pieces with
  | nil => exact nofun
  | cons piece pieces ih =>
    have hpiece := h piece List.mem_cons_self
    have hle := fun piece' hmem => h piece' (List.mem_cons_of_mem piece hmem)
    have hrest := length_flatten_le hle
    simp only [List.flatten_cons, List.length_append, List.length_cons, Nat.mul_add, Nat.mul_one] at hfull
    intro piece' hmem
    rcases List.mem_cons.mp hmem with rfl | hmem
    · omega
    · exact ih hle (by omega) piece' hmem

lemma pieces_unique (hpos : 0 < n) (h : ∀ piece ∈ pieces, piece.length = n)
    (h' : ∀ piece ∈ pieces', piece.length = n) (heq : pieces.flatten = pieces'.flatten) :
    pieces = pieces' := by
  induction pieces generalizing pieces' with
  | nil =>
    have hlen := length_flatten_eq h'
    rw [← heq, List.flatten_nil, List.length_nil] at hlen
    have hzero : pieces'.length = 0 := by
      rcases Nat.mul_eq_zero.mp hlen.symm with h0 | h0
      · omega
      · exact h0
    exact (List.length_eq_zero_iff.mp hzero).symm
  | cons piece pieces ih =>
    have hpiece := h piece List.mem_cons_self
    cases pieces' with
    | nil =>
      have hlen := congrArg List.length heq
      simp only [List.flatten_cons, List.length_append, List.flatten_nil, List.length_nil] at hlen
      omega
    | cons piece' pieces' =>
      rw [List.flatten_cons, List.flatten_cons] at heq
      have hlen : piece.length = piece'.length := hpiece.trans (h' piece' List.mem_cons_self).symm
      obtain ⟨rfl, hrest⟩ := List.append_inj heq hlen
      rw [ih (fun q hq => h q (List.mem_cons_of_mem piece hq))
        (fun q hq => h' q (List.mem_cons_of_mem piece hq)) hrest]

lemma countP_filter_add (p : α → Bool) (keep : List α → Bool) (pieces : List (List α)) :
    (pieces.filter keep).flatten.countP p + (pieces.filter (!keep ·)).flatten.countP p =
      pieces.flatten.countP p := by
  induction pieces with
  | nil => rfl
  | cons piece pieces ih =>
    cases hkeep : keep piece with
    | true =>
      simp only [List.filter_cons, hkeep, Bool.not_true, Bool.false_eq_true, if_true, if_false,
        List.flatten_cons, List.countP_append]
      omega
    | false =>
      simp only [List.filter_cons, hkeep, Bool.not_false, Bool.false_eq_true, if_true, if_false,
        List.flatten_cons, List.countP_append]
      omega

end SystemsLab.Streams
