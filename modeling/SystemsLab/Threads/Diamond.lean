import Mathlib.Data.Nat.Notation

namespace SystemsLab.Threads

variable {A S : Type} {act : A → S → Option S} {inv : S → Prop} {n k : ℕ} {s s' t u : S} {a : A}

inductive Run (act : A → S → Option S) : ℕ → S → S → Prop
  | refl (s : S) : Run act 0 s s
  | step {n : ℕ} {s s' t : S} (a : A) (h : act a s = some s') (rest : Run act n s' t) : Run act (n + 1) s t

lemma Run.trans (h : Run act n s t) (h' : Run act k t u) : Run act (n + k) s u := by
  induction h with
  | refl s => rwa [Nat.zero_add]
  | @step n s s' t a ha rest ih =>
    rw [Nat.add_right_comm]
    exact .step a ha (ih h')

def Terminal (act : A → S → Option S) (s : S) : Prop := ∀ a, act a s = none

structure Diamond (act : A → S → Option S) (inv : S → Prop) : Prop where
  keeps : ∀ {a s s'}, inv s → act a s = some s' → inv s'
  joins : ∀ {a b s s₁ s₂}, inv s → a ≠ b → act a s = some s₁ → act b s = some s₂ →
    ∃ s₃, act b s₁ = some s₃ ∧ act a s₂ = some s₃

lemma Diamond.run (hd : Diamond act inv) (hs : inv s) (h : Run act n s t) : inv t := by
  induction h with
  | refl s => exact hs
  | step a ha rest ih => exact ih (hd.keeps hs ha)

lemma Diamond.first (hd : Diamond act inv) (hs : inv s) (hrun : Run act n s t) (hend : Terminal act t)
    (h : act a s = some s') : ∃ m, n = m + 1 ∧ Run act m s' t := by
  classical
  induction hrun generalizing a s' with
  | refl s => rw [hend a] at h; cases h
  | @step n s r t b hb rest ih =>
    by_cases hab : a = b
    · subst hab
      obtain rfl := Option.some.inj (h.symm.trans hb)
      exact ⟨n, rfl, rest⟩
    · obtain ⟨q, hbq, haq⟩ := hd.joins hs hab h hb
      obtain ⟨m, rfl, hm⟩ := ih (hd.keeps hs hb) hend haq
      exact ⟨m + 1, rfl, .step b hbq hm⟩

theorem Diamond.complete (hd : Diamond act inv) (hs : inv s) (hrun : Run act n s t)
    (hend : Terminal act t) (h : Run act k s u) : k ≤ n ∧ Run act (n - k) u t := by
  induction h generalizing n with
  | refl s => exact ⟨Nat.zero_le n, hrun⟩
  | @step k s s' u a ha rest ih =>
    obtain ⟨m, rfl, hm⟩ := hd.first hs hrun hend ha
    obtain ⟨hle, hmore⟩ := ih (hd.keeps hs ha) hm
    rw [Nat.succ_sub_succ]
    exact ⟨Nat.succ_le_succ hle, hmore⟩

end SystemsLab.Threads
