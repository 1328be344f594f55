import SystemsLab.CLib.Bytes
import Mathlib.Data.List.Basic

namespace SystemsLab.CLib

def slash : UInt8 := 47

def strrchr : Bytes → UInt8 → Option Bytes
  | [], _ => none
  | b :: s, c =>
    match strrchr s c with
    | some p => some p
    | none => if b = c then some (b :: s) else none

def components (path : Bytes) : List Bytes := (path.splitOn slash).filter (· ≠ [])

variable {s p path dir base name : Bytes} {c : UInt8}

lemma not_mem_of_strrchr (h : strrchr s c = none) : c ∉ s := by
  induction s with
  | nil => exact List.not_mem_nil
  | cons b s ih =>
    rw [strrchr] at h
    cases hrest : strrchr s c with
    | some p =>
      rw [hrest] at h
      exact absurd h (Option.some_ne_none p)
    | none =>
      simp only [hrest] at h
      split_ifs at h with hb
      exact List.not_mem_cons_of_ne_of_not_mem (Ne.symm hb) (ih hrest)

lemma strrchr_split (h : strrchr s c = some p) : ∃ front back, s = front ++ c :: back ∧
    p = c :: back ∧ c ∉ back := by
  induction s with
  | nil => exact absurd h.symm (Option.some_ne_none p)
  | cons b s ih =>
    rw [strrchr] at h
    cases hrest : strrchr s c with
    | some q =>
      simp only [hrest] at h
      obtain ⟨front, back, hs, hp, hback⟩ := ih (hrest.trans h)
      exact ⟨b :: front, back, by rw [hs, List.cons_append], hp, hback⟩
    | none =>
      simp only [hrest] at h
      split_ifs at h with hb
      subst hb
      exact ⟨[], s, rfl, (Option.some.inj h).symm, not_mem_of_strrchr hrest⟩

@[simp] lemma components_nil : components [] = [] := by
  simp [components]

lemma components_append (path rest : Bytes) :
    components (path ++ slash :: rest) = components path ++ components rest := by
  rw [components, List.splitOn_append_cons_self, List.filter_append]
  rfl

lemma components_concat (path : Bytes) : components (path ++ [slash]) = components path := by
  rw [components_append, components_nil, List.append_nil]

lemma components_name (hname : slash ∉ name) (hne : name ≠ []) : components name = [name] := by
  rw [components, List.splitOn_eq_singleton hname]
  simp [hne]

end SystemsLab.CLib
