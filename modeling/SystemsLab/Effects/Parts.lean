import SystemsLab.Effects.Ending

namespace SystemsLab.Effects

structure Part (τ σ : Type) where
  read : τ → σ
  write : τ → σ → τ
  read_write : ∀ t s, read (write t s) = s

variable {ε σ τ α β : Type} {p : Part τ σ}

namespace Part

def run (p : Part τ σ) (m : EStateM ε σ α) : EStateM ε τ α := fun t =>
  match m (p.read t) with
  | .ok a s => .ok a (p.write t s)
  | .error e s => .error e (p.write t s)

/-- `m'` gives what `m` gives on the part, and may do anything to the rest of the state. -/
def Erases (p : Part τ σ) (m' : EStateM ε τ α) (m : EStateM ε σ α) : Prop :=
  ∀ t, Ends m' (fun a t' => m (p.read t) = .ok a (p.read t'))
    (fun e t' => m (p.read t) = .error e (p.read t')) t

end Part

lemma ends_run {m : EStateM ε σ α} {Q : α → τ → Prop} {E : ε → τ → Prop} {t : τ} :
    Ends (p.run m) Q E t ↔
      Ends m (fun a s => Q a (p.write t s)) (fun e s => E e (p.write t s)) (p.read t) := by
  rw [Ends, Ends, Part.run]
  cases m (p.read t) with
  | ok a s => exact Iff.rfl
  | error e s => exact Iff.rfl

lemma ends_run_bind {m : EStateM ε σ α} {f' : α → EStateM ε τ β} {Q : β → τ → Prop}
    {E : ε → τ → Prop} {t : τ} :
    Ends (p.run m >>= f') Q E t ↔
      Ends m (fun a s => Ends (f' a) Q E (p.write t s)) (fun e s => E e (p.write t s)) (p.read t) := by
  rw [ends_bind, ends_run]

namespace Part.Erases

variable {m' : EStateM ε τ α} {m : EStateM ε σ α} {f' : α → EStateM ε τ β} {f : α → EStateM ε σ β}

lemma run (m : EStateM ε σ α) : p.Erases (p.run m) m := by
  intro t
  rw [ends_run, Ends]
  cases m (p.read t) with
  | ok a s => exact congrArg _ (p.read_write t s).symm
  | error e s => exact congrArg _ (p.read_write t s).symm

lemma pure (a : α) : p.Erases (Pure.pure a : EStateM ε τ α) (Pure.pure a) := fun _ => rfl

lemma throw (e : ε) : p.Erases (MonadExcept.throw e : EStateM ε τ α) (MonadExcept.throw e) :=
  fun _ => rfl

lemma bind (hm : p.Erases m' m) (hf : ∀ a, p.Erases (f' a) (f a)) :
    p.Erases (m' >>= f') (m >>= f) := by
  intro t
  rw [ends_bind]
  refine (hm t).mono ?_ ?_
  · intro a t' ha
    have hb : (m >>= f) (p.read t) = f a (p.read t') := by
      change EStateM.bind m f (p.read t) = _
      rw [EStateM.bind, ha]
    rw [hb]
    exact hf a t'
  · intro e t' he
    change EStateM.bind m f (p.read t) = _
    rw [EStateM.bind, he]

lemma run_bind (hf : ∀ a, p.Erases (f' a) (f a)) : p.Erases (p.run m >>= f') (m >>= f) :=
  .bind (.run m) hf

lemma ite {c : Prop} [Decidable c] {n' : EStateM ε τ α} {n : EStateM ε σ α} (hm : p.Erases m' m)
    (hn : p.Erases n' n) : p.Erases (if c then m' else n') (if c then m else n) := by
  by_cases hc : c
  · rwa [if_pos hc, if_pos hc]
  · rwa [if_neg hc, if_neg hc]

lemma aside {g : τ → τ} {h' : PUnit → EStateM ε τ α} (hg : ∀ t, p.read (g t) = p.read t)
    (hm : p.Erases (h' ⟨⟩) m) : p.Erases (modify g >>= h') m := by
  intro t
  rw [ends_bind, ends_modify]
  have h := hm (g t)
  rwa [hg] at h

lemma forM {γ : Type} {g' : γ → EStateM ε τ PUnit} {g : γ → EStateM ε σ PUnit}
    (h : ∀ x, p.Erases (g' x) (g x)) (l : List γ) : p.Erases (l.forM g') (l.forM g) := by
  induction l with
  | nil => exact pure _
  | cons x l ih => exact bind (h x) fun _ => ih

lemma foldlM {γ : Type} {g' : α → γ → EStateM ε τ α} {g : α → γ → EStateM ε σ α}
    (h : ∀ a x, p.Erases (g' a x) (g a x)) (l : List γ) (a : α) :
    p.Erases (l.foldlM g' a) (l.foldlM g a) := by
  induction l generalizing a with
  | nil => exact pure a
  | cons x l ih => exact bind (h a x) ih

end Part.Erases

end SystemsLab.Effects
