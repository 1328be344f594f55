import Mathlib.Data.List.Basic
import Mathlib.Algebra.Order.Group.Nat
import Mathlib.Logic.Function.Basic

namespace SystemsLab.Tables

variable {α : Type*} {n : ℕ} {slots : ℕ → α} {items : List α}

def HoldsLast (n : ℕ) (slots : ℕ → α) (items : List α) : Prop :=
  ∀ i (h : i < items.length), items.length ≤ i + n → slots (i % n) = items[i]

lemma HoldsLast.nil (n : ℕ) (slots : ℕ → α) : HoldsLast n slots [] := by
  intro i h
  exact absurd h (Nat.not_lt_zero i)

lemma mod_ne_of_close {i j : ℕ} (hlt : i < j) (hclose : j < i + n) : i % n ≠ j % n := by
  intro heq
  have hdvd : n ∣ j - i := Nat.dvd_of_mod_eq_zero (Nat.sub_mod_eq_zero_of_mod_eq heq.symm)
  have hle := Nat.le_of_dvd (by omega) hdvd
  omega

lemma HoldsLast.put (h : HoldsLast n slots items) (item : α) :
    HoldsLast n (Function.update slots (items.length % n) item) (items ++ [item]) := by
  intro i hi hlast
  simp only [List.length_append, List.length_singleton] at hi hlast
  rcases Nat.lt_or_ge i items.length with hlt | hge
  · rw [Function.update_of_ne (mod_ne_of_close hlt (by omega)), h i hlt (by omega),
      List.getElem_append_left hlt]
  · have heq : i = items.length := by omega
    subst heq
    rw [Function.update_self, List.getElem_concat_length rfl]

lemma HoldsLast.read (h : HoldsLast n slots items) {start used : ℕ}
    (hused : used = if items.length < n then items.length else n)
    (hstart : start = if items.length < n then 0 else items.length % n) :
    (List.range used).map (fun i => slots ((start + i) % n)) =
      items.drop (items.length - n) := by
  have hlen : used = items.length - (items.length - n) := by
    split_ifs at hused <;> omega
  apply List.ext_getElem
  · simpa using hlen
  · intro i hi hi'
    simp only [List.length_map, List.length_range] at hi
    have hslot : (start + i) % n = (items.length - n + i) % n := by
      split_ifs at hstart with hfew
      · have hzero : items.length - n = 0 := by omega
        rw [hstart, hzero]
      · have hsum : items.length + i = (items.length - n + i) + n := by omega
        rw [hstart, Nat.mod_add_mod, hsum, Nat.add_mod_right]
    rw [List.getElem_map, List.getElem_range, hslot, h _ (by omega) (by omega), List.getElem_drop]

end SystemsLab.Tables
