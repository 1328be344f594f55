import SystemsLab.Effects.Ending

namespace SystemsLab.Effects

variable {ε σ α β : Type}

def Moves (R : σ → σ → Prop) (m : EStateM ε σ α) : Prop :=
  ∀ s, Ends m (fun _ s' => R s s') (fun _ s' => R s s') s

structure Steady (R : σ → σ → Prop) : Prop where
  refl : ∀ s, R s s
  trans : ∀ {s s' s''}, R s s' → R s' s'' → R s s''

variable {R : σ → σ → Prop} {m m' : EStateM ε σ α} {f : α → EStateM ε σ β}

lemma Moves.ok {s s' : σ} {a : α} (h : Moves R m) (hm : m s = .ok a s') : R s s' := (h s).ok hm

lemma Steady.reads (hR : Steady R) (h : Reads m) : Moves R m := by
  intro s
  refine (h s).mono ?_ ?_
  · rintro a s' rfl
    exact hR.refl s'
  · rintro e s' rfl
    exact hR.refl s'

lemma Steady.bind (hR : Steady R) (hm : Moves R m) (hf : ∀ a, Moves R (f a)) :
    Moves R (m >>= f) := by
  intro s
  rw [ends_bind]
  refine (hm s).imp fun a s' h => ?_
  exact (hf a s').mono (fun _ _ h' => hR.trans h h') (fun _ _ h' => hR.trans h h')

lemma Moves.ite {c : Prop} [Decidable c] (hm : Moves R m) (hm' : Moves R m') :
    Moves R (if c then m else m') := by
  by_cases hc : c
  · rwa [if_pos hc]
  · rwa [if_neg hc]

lemma moves_modify {g : σ → σ} (h : ∀ s, R s (g s)) :
    Moves R (modify g : EStateM ε σ PUnit) := h

end SystemsLab.Effects
