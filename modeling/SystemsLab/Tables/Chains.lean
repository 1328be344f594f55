import Mathlib.Data.List.Basic
import Mathlib.Data.List.Nodup
import Mathlib.Logic.Function.Basic

namespace SystemsLab.Tables

variable {α : Type*} {next slotOf : α → ℕ} {entries : List α} {slots : ℕ → ℕ} {entry : α}
  {i k n : ℕ} {chain chain' : List ℕ}

inductive Chain (next : α → ℕ) (entries : List α) : ℕ → List ℕ → Prop
  | nil : Chain next entries 0 []
  | cons {i : ℕ} {entry : α} {chain : List ℕ} : entries[i]? = some entry →
      Chain next entries (next entry) chain → Chain next entries (i + 1) (i :: chain)

lemma Chain.append (h : Chain next entries n chain) (more : List α) :
    Chain next (entries ++ more) n chain := by
  induction h with
  | nil => exact Chain.nil
  | cons hentry _ ih =>
    refine Chain.cons ?_ ih
    rw [List.getElem?_append_left (List.getElem?_eq_some_iff.mp hentry).1]
    exact hentry

def members (slotOf : α → ℕ) (entries : List α) (k : ℕ) : List ℕ :=
  ((entries.zipIdx.filter fun p => slotOf p.1 == k).map Prod.snd).reverse

lemma members_concat (slotOf : α → ℕ) (entries : List α) (entry : α) (k : ℕ) :
    members slotOf (entries ++ [entry]) k =
      if slotOf entry = k then entries.length :: members slotOf entries k
      else members slotOf entries k := by
  rw [members, List.zipIdx_append, List.filter_append, List.map_append, List.reverse_append]
  split_ifs with hk
  · simp [hk, members]
  · simp [hk, members]

lemma mem_members : i ∈ members slotOf entries k ↔
    ∃ entry, entries[i]? = some entry ∧ slotOf entry = k := by
  simp only [members, List.mem_reverse, List.mem_map, List.mem_filter, List.mem_zipIdx_iff_getElem?,
    beq_iff_eq, Prod.exists]
  constructor
  · rintro ⟨entry, j, ⟨hentry, hk⟩, rfl⟩
    exact ⟨entry, hentry, hk⟩
  · rintro ⟨entry, hentry, hk⟩
    exact ⟨entry, i, ⟨hentry, hk⟩, rfl⟩

lemma nodup_members (slotOf : α → ℕ) (entries : List α) (k : ℕ) :
    (members slotOf entries k).Nodup := by
  rw [members, List.nodup_reverse]
  have hsub : ((entries.zipIdx.filter fun p => slotOf p.1 == k).map Prod.snd).Sublist
      (entries.zipIdx.map Prod.snd) := List.filter_sublist.map _
  refine hsub.nodup ?_
  rw [List.zipIdx_map_snd]
  exact List.nodup_range'

def Chained (slotOf next : α → ℕ) (entries : List α) (slots : ℕ → ℕ) : Prop :=
  ∀ k, Chain next entries (slots k) (members slotOf entries k)

lemma chained_nil : Chained slotOf next [] fun _ => 0 := fun _ => Chain.nil

lemma Chained.push (h : Chained slotOf next entries slots) (entry : α)
    (hnext : next entry = slots (slotOf entry)) :
    Chained slotOf next (entries ++ [entry])
      (Function.update slots (slotOf entry) (entries.length + 1)) := by
  intro k
  rw [members_concat]
  by_cases hk : slotOf entry = k
  · subst hk
    rw [if_pos rfl, Function.update_self]
    refine Chain.cons List.getElem?_concat_length ?_
    rw [hnext]
    exact (h _).append _
  · rw [if_neg hk, Function.update_of_ne (Ne.symm hk)]
    exact (h k).append _

end SystemsLab.Tables
