import Mathlib.Order.Interval.Finset.Nat
import Mathlib.Logic.Function.Basic

namespace SystemsLab.Tables

variable {α : Type}

def occupied (bound : ℕ) (slot : ℕ → Option α) : Finset ℕ :=
  (Finset.Icc 1 bound).filter fun i => (slot i).isSome

def lastUsed (slot : ℕ → Option α) : ℕ → ℕ
  | 0 => 0
  | h + 1 => if (slot (h + 1)).isSome then h + 1 else lastUsed slot h

structure Counts (bound : ℕ) (slot : ℕ → Option α) (count highest : ℕ) : Prop where
  count_eq : count = (occupied bound slot).card
  highest_mem : highest = 0 ∨ highest ∈ occupied bound slot
  le_highest : ∀ i ∈ occupied bound slot, i ≤ highest

variable {bound count highest i h : ℕ} {slot : ℕ → Option α} {a : α}

lemma mem_occupied : i ∈ occupied bound slot ↔ (1 ≤ i ∧ i ≤ bound) ∧ (slot i).isSome := by
  simp only [occupied, Finset.mem_filter, Finset.mem_Icc]

lemma occupied_update_zero (v : Option α) :
    occupied bound (Function.update slot 0 v) = occupied bound slot := by
  ext i
  rw [mem_occupied, mem_occupied]
  by_cases hi : i = 0
  · omega
  · rw [Function.update_of_ne hi]

lemma occupied_update_some (hi : 1 ≤ i ∧ i ≤ bound) :
    occupied bound (Function.update slot i (some a)) = insert i (occupied bound slot) := by
  ext k
  rw [Finset.mem_insert, mem_occupied, mem_occupied]
  by_cases hk : k = i
  · subst k
    rw [Function.update_self]
    exact iff_of_true ⟨hi, rfl⟩ (Or.inl rfl)
  · rw [Function.update_of_ne hk, or_iff_right hk]

lemma occupied_update_none :
    occupied bound (Function.update slot i none) = (occupied bound slot).erase i := by
  ext k
  rw [Finset.mem_erase, mem_occupied, mem_occupied]
  by_cases hk : k = i
  · subst k
    rw [Function.update_self]
    exact iff_of_false (fun hn => nomatch hn.2) (fun hn => hn.1 rfl)
  · rw [Function.update_of_ne hk]
    exact (and_iff_right hk).symm

lemma lastUsed_le (slot : ℕ → Option α) (h : ℕ) : lastUsed slot h ≤ h := by
  induction h with
  | zero => exact le_rfl
  | succ h ih =>
    rw [lastUsed]
    split
    · exact le_rfl
    · exact ih.trans (Nat.le_succ h)

lemma lastUsed_used (slot : ℕ → Option α) (h : ℕ) :
    lastUsed slot h = 0 ∨ (slot (lastUsed slot h)).isSome := by
  induction h with
  | zero => exact Or.inl rfl
  | succ h ih =>
    rw [lastUsed]
    split
    · next hs => exact Or.inr hs
    · exact ih

lemma le_lastUsed (hi : (slot i).isSome) (hle : i ≤ h) : i ≤ lastUsed slot h := by
  induction h with
  | zero => exact hle
  | succ h ih =>
    rw [lastUsed]
    split
    · exact hle
    · next hs =>
      refine ih ?_
      rcases Nat.le_succ_iff.mp hle with hle | rfl
      · exact hle
      · exact absurd hi hs

namespace Counts

lemma highest_le (hc : Counts bound slot count highest) : highest ≤ bound := by
  rcases hc.highest_mem with h0 | hmem
  · omega
  · exact (mem_occupied.mp hmem).1.2

lemma highest_lt_iff (hc : Counts bound slot count highest) (hb : 1 ≤ bound) :
    highest < bound ↔ slot bound = none := by
  constructor
  · intro hlt
    by_contra hne
    have hmem : bound ∈ occupied bound slot :=
      mem_occupied.mpr ⟨⟨hb, le_rfl⟩, Option.isSome_iff_ne_none.mpr hne⟩
    exact absurd (hc.le_highest bound hmem) (by omega)
  · intro hnone
    refine lt_of_le_of_ne hc.highest_le ?_
    rintro rfl
    rcases hc.highest_mem with h0 | hmem
    · omega
    · rw [mem_occupied, hnone] at hmem
      cases hmem.2

lemma empty (bound : ℕ) : Counts bound (fun _ => (none : Option α)) 0 0 where
  count_eq := by simp [occupied]
  highest_mem := Or.inl rfl
  le_highest i hi := by simp [occupied] at hi

lemma update_zero (hc : Counts bound slot count highest) (v : Option α) :
    Counts bound (Function.update slot 0 v) count highest := by
  constructor
  · rw [occupied_update_zero]; exact hc.count_eq
  · rw [occupied_update_zero]; exact hc.highest_mem
  · rw [occupied_update_zero]; exact hc.le_highest

lemma add (hc : Counts bound slot count highest) (hlt : highest < bound) :
    Counts bound (Function.update slot (highest + 1) (some a)) (count + 1) (highest + 1) := by
  have hocc : occupied bound (Function.update slot (highest + 1) (some a)) =
      insert (highest + 1) (occupied bound slot) :=
    occupied_update_some ⟨Nat.le_add_left 1 highest, hlt⟩
  have hnot : highest + 1 ∉ occupied bound slot := by
    intro hmem
    exact absurd (hc.le_highest _ hmem) (Nat.not_succ_le_self highest)
  constructor
  · rw [hocc, Finset.card_insert_of_notMem hnot, ← hc.count_eq]
  · rw [hocc]
    exact Or.inr (Finset.mem_insert_self _ _)
  · intro i hi
    rw [hocc, Finset.mem_insert] at hi
    rcases hi with rfl | hi
    · exact le_rfl
    · exact (hc.le_highest i hi).trans (Nat.le_succ highest)

lemma remove (hc : Counts bound slot count highest) (hi : i ∈ occupied bound slot) :
    Counts bound (Function.update slot i none) (count - 1)
      (lastUsed (Function.update slot i none) highest) := by
  constructor
  · rw [occupied_update_none, Finset.card_erase_of_mem hi, ← hc.count_eq]
  · rcases lastUsed_used (Function.update slot i none) highest with h0 | hs
    · exact Or.inl h0
    · by_cases hz : lastUsed (Function.update slot i none) highest = 0
      · exact Or.inl hz
      · have hle := (lastUsed_le (Function.update slot i none) highest).trans hc.highest_le
        exact Or.inr (mem_occupied.mpr ⟨⟨Nat.one_le_iff_ne_zero.mpr hz, hle⟩, hs⟩)
  · intro k hk
    rw [mem_occupied] at hk
    refine le_lastUsed hk.2 (hc.le_highest k ?_)
    rw [mem_occupied]
    refine ⟨hk.1, ?_⟩
    by_cases hki : k = i
    · subst k
      rw [Function.update_self] at hk
      cases hk.2
    · rw [Function.update_of_ne hki] at hk
      exact hk.2

end Counts

end SystemsLab.Tables
