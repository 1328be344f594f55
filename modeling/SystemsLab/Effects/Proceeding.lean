import SystemsLab.Effects.Moves

namespace SystemsLab.Effects

variable {ε σ α β : Type}

instance (m : EStateM ε σ α) (Q : α → σ → Prop) (E : ε → σ → Prop) (s : σ)
    [hQ : ∀ a s', Decidable (Q a s')] [hE : ∀ e s', Decidable (E e s')] : Decidable (Ends m Q E s) :=
  match hm : m s with
  | .ok a s' => decidable_of_decidable_of_iff (p := Q a s') (by simp only [Ends, hm])
  | .error e s' => decidable_of_decidable_of_iff (p := E e s') (by simp only [Ends, hm])

def Proceeds (R : σ → σ → Prop) (P : ε → Prop) (m : EStateM ε σ α) : Prop :=
  ∀ s, Ends m (fun _ s' => R s s') (fun e _ => P e) s

variable {R : σ → σ → Prop} {P : ε → Prop} {m m' : EStateM ε σ α} {f : α → EStateM ε σ β}
  {Q : α → σ → Prop} {E : ε → σ → Prop} {s : σ}

lemma Proceeds.ends (h : Proceeds R P m) (hm : Ends m Q E s) :
    Ends m (fun a s' => Q a s' ∧ R s s') (fun e _ => P e) s :=
  (hm.and (h s)).mono (fun _ _ hq => hq) (fun _ _ he => he.2)

lemma Proceeds.ite {c : Prop} [Decidable c] (hm : Proceeds R P m) (hm' : Proceeds R P m') :
    Proceeds R P (if c then m else m') := by
  by_cases hc : c
  · rwa [if_pos hc]
  · rwa [if_neg hc]

lemma proceeds_modify {g : σ → σ} (h : ∀ s, R s (g s)) :
    Proceeds R P (modify g : EStateM ε σ PUnit) := h

lemma proceeds_throw {e : ε} (he : P e) : Proceeds R P (throw e : EStateM ε σ α) := fun _ => he

lemma Steady.proceeds_pure (hR : Steady R) (a : α) : Proceeds R P (pure a : EStateM ε σ α) := hR.refl

lemma Steady.proceeds_get (hR : Steady R) : Proceeds R P (get : EStateM ε σ σ) := hR.refl

lemma Steady.proceeds_bind (hR : Steady R) (hm : Proceeds R P m) (hf : ∀ a, Proceeds R P (f a)) :
    Proceeds R P (m >>= f) := by
  intro s
  rw [ends_bind]
  refine (hm s).imp fun a s' h => ?_
  exact (hf a s').imp fun _ _ h' => hR.trans h h'

end SystemsLab.Effects
