import Mathlib.Data.List.GetD
import Mathlib.Data.Nat.Notation
import Mathlib.Logic.Basic
import Mathlib.Tactic.SplitIfs

namespace SystemsLab.Tables

structure FdTable (α : Type) where
  entries : List (Option α)

namespace FdTable

variable {α β : Type} {t : FdTable α} {fd fd' : ℕ} {v : Option α} {x : α}

def get (t : FdTable α) (fd : ℕ) : Option α := t.entries.getD fd none

def set (t : FdTable α) (fd : ℕ) (v : Option α) : FdTable α :=
  if fd < t.entries.length then ⟨t.entries.set fd v⟩
  else ⟨t.entries ++ (List.replicate (fd - t.entries.length) none ++ [v])⟩

def lowestFree (t : FdTable α) : ℕ := t.entries.findIdx Option.isNone

def openAt (t : FdTable α) (x : α) : ℕ × FdTable α := (t.lowestFree, t.set t.lowestFree (some x))

def close (t : FdTable α) (fd : ℕ) : FdTable α := t.set fd none

/-- `none` is the error of a descriptor that is not open. -/
def dup2 (t : FdTable α) (oldfd newfd : ℕ) : Option (FdTable α) :=
  (t.get oldfd).map fun x => t.set newfd (some x)

def map (f : α → β) (t : FdTable α) : FdTable β := ⟨t.entries.map (Option.map f)⟩

lemma get_set_self (t : FdTable α) (fd : ℕ) (v : Option α) : (t.set fd v).get fd = v := by
  rw [get, set]
  split_ifs with hlt
  · have hlt' : fd < (t.entries.set fd v).length := by rwa [List.length_set]
    rw [List.getD_eq_getElem _ _ hlt', List.getElem_set_self]
  · have hle := Nat.le_of_not_lt hlt
    rw [List.getD_append_right _ _ _ _ hle, List.getD_append_right]
    · rw [List.length_replicate, Nat.sub_self]
      rfl
    · exact Nat.le_of_eq List.length_replicate

lemma get_set_of_ne (h : fd' ≠ fd) : (t.set fd v).get fd' = t.get fd' := by
  rw [get, get, set]
  split_ifs with hlt
  · rw [List.getD_eq_getElem?_getD, List.getD_eq_getElem?_getD, List.getElem?_set_ne h.symm]
  · by_cases hlt' : fd' < t.entries.length
    · rw [List.getD_append _ _ _ _ hlt']
    · have hle' := Nat.le_of_not_lt hlt'
      rw [List.getD_append_right _ _ _ _ hle', List.getD_eq_default _ _ hle']
      by_cases hrep : fd' - t.entries.length < fd - t.entries.length
      · rw [List.getD_append _ _ _ _ (by rwa [List.length_replicate]), List.getD_replicate _ hrep]
      · apply List.getD_eq_default
        rw [List.length_append, List.length_replicate, List.length_singleton]
        omega

lemma get_set (t : FdTable α) (fd : ℕ) (v : Option α) (fd' : ℕ) :
    (t.set fd v).get fd' = if fd' = fd then v else t.get fd' := by
  split_ifs with h
  · rw [h, get_set_self]
  · exact get_set_of_ne h

lemma get_lowestFree (t : FdTable α) : t.get t.lowestFree = none := by
  rw [get, lowestFree]
  by_cases hlt : t.entries.findIdx Option.isNone < t.entries.length
  · rw [List.getD_eq_getElem _ _ hlt]
    exact Option.isNone_iff_eq_none.mp (List.findIdx_getElem (w := hlt))
  · exact List.getD_eq_default _ _ (Nat.le_of_not_lt hlt)

lemma get_map (f : α → β) (t : FdTable α) (fd : ℕ) : (t.map f).get fd = (t.get fd).map f := by
  rw [get, get, map, List.getD_eq_getElem?_getD, List.getD_eq_getElem?_getD, List.getElem?_map]
  cases t.entries[fd]? <;> rfl

end FdTable

end SystemsLab.Tables
