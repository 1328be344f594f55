import Mathlib.Logic.Function.Basic
import Mathlib.Data.Nat.Notation
import Mathlib.Tactic.SplitIfs

namespace SystemsLab

open Function

structure Slots (K V : Type*) where
  key : ℕ → K
  val : ℕ → V
  size : ℕ

namespace Slots

variable {K V : Type*} {t : Slots K V} {i : ℕ} {k k' : K} {v v' : V}

def Distinct (t : Slots K V) : Prop :=
  ∀ i < t.size, ∀ j < t.size, t.key i = t.key j → i = j

def Has (t : Slots K V) (k : K) (v : V) : Prop := ∃ i < t.size, t.key i = k ∧ t.val i = v

def push (t : Slots K V) (k : K) (v : V) : Slots K V :=
  ⟨update t.key t.size k, update t.val t.size v, t.size + 1⟩

def set (t : Slots K V) (i : ℕ) (v : V) : Slots K V := { t with val := update t.val i v }

/-- `k` and `v` are what the slot that becomes free is filled with. -/
def removeAt (t : Slots K V) (i : ℕ) (k : K) (v : V) : Slots K V :=
  let last := t.size - 1
  { key := update (update t.key i (t.key last)) last k
    val := update (update t.val i (t.val last)) last v
    size := t.size - 1 }

section Push

lemma has_push : (t.push k v).Has k' v' ↔ t.Has k' v' ∨ k = k' ∧ v = v' := by
  simp only [Has, push]
  constructor
  · rintro ⟨i, hi, hk, hv⟩
    by_cases he : i = t.size
    · rw [he, update_self] at hk hv
      exact .inr ⟨hk, hv⟩
    · rw [update_of_ne he] at hk hv
      exact .inl ⟨i, by omega, hk, hv⟩
  · rintro (⟨i, hi, hk, hv⟩ | ⟨hk, hv⟩)
    · refine ⟨i, by omega, ?_, ?_⟩
      · rwa [update_of_ne (Nat.ne_of_lt hi)]
      · rwa [update_of_ne (Nat.ne_of_lt hi)]
    · exact ⟨t.size, by omega, by rwa [update_self], by rwa [update_self]⟩

lemma Distinct.push (h : t.Distinct) (hk : ∀ i < t.size, t.key i ≠ k) :
    (t.push k v).Distinct := by
  intro i hi j hj he
  simp only [Slots.push] at hi hj he
  by_cases hi' : i = t.size <;> by_cases hj' : j = t.size
  · rw [hi', hj']
  · rw [hi', update_self, update_of_ne hj'] at he
    exact absurd he.symm (hk j (by omega))
  · rw [hj', update_self, update_of_ne hi'] at he
    exact absurd he (hk i (by omega))
  · rw [update_of_ne hi', update_of_ne hj'] at he
    exact h i (by omega) j (by omega) he

end Push

section Set

lemma has_set (hk : k ≠ t.key i) :
    (t.set i v).Has k v' ↔ t.Has k v' := by
  refine exists_congr fun j => and_congr_right fun hj => and_congr_right fun hkj => ?_
  have hji : j ≠ i := by
    rintro rfl
    exact hk hkj.symm
  simp only [Slots.set, update_of_ne hji]

end Set

section RemoveAt

lemma Distinct.removeAt (h : t.Distinct) (hi : i < t.size) : (t.removeAt i k v).Distinct := by
  intro a ha b hb he
  simp only [Slots.removeAt] at ha hb he
  have hal : a ≠ t.size - 1 := by omega
  have hbl : b ≠ t.size - 1 := by omega
  rw [update_of_ne hal, update_of_ne hbl] at he
  by_cases hai : a = i <;> by_cases hbi : b = i
  · rw [hai, hbi]
  · rw [hai, update_self, update_of_ne hbi] at he
    exact absurd (h (t.size - 1) (by omega) b (by omega) he) hbl.symm
  · rw [hbi, update_self, update_of_ne hai] at he
    exact absurd (h a (by omega) (t.size - 1) (by omega) he) hal
  · rw [update_of_ne hai, update_of_ne hbi] at he
    exact h a (by omega) b (by omega) he

lemma has_removeAt (h : t.Distinct) (hi : i < t.size) :
    (t.removeAt i k v).Has k' v' ↔ t.Has k' v' ∧ k' ≠ t.key i := by
  simp only [Has, Slots.removeAt]
  constructor
  · rintro ⟨j, hj, hk, hv⟩
    have hjl : j ≠ t.size - 1 := by omega
    rw [update_of_ne hjl] at hk hv
    by_cases hji : j = i
    · rw [hji, update_self] at hk hv
      refine ⟨⟨t.size - 1, by omega, hk, hv⟩, fun he => hjl ?_⟩
      rw [hji]
      exact h i hi (t.size - 1) (by omega) (he.symm.trans hk.symm)
    · rw [update_of_ne hji] at hk hv
      refine ⟨⟨j, by omega, hk, hv⟩, fun he => hji ?_⟩
      exact h j (by omega) i hi (hk.trans he)
  · rintro ⟨⟨j, hj, hk, hv⟩, hne⟩
    have hji : j ≠ i := by
      rintro rfl
      exact hne hk.symm
    by_cases hjl : j = t.size - 1
    · have hil : i ≠ t.size - 1 := fun he => hji (hjl.trans he.symm)
      refine ⟨i, by omega, ?_, ?_⟩
      · rwa [update_of_ne hil, update_self, ← hjl]
      · rwa [update_of_ne hil, update_self, ← hjl]
    · refine ⟨j, by omega, ?_, ?_⟩
      · rwa [update_of_ne hjl, update_of_ne hji]
      · rwa [update_of_ne hjl, update_of_ne hji]

end RemoveAt

end Slots

end SystemsLab
