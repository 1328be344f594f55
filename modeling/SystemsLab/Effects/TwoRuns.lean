import SystemsLab.Effects.Ending

/-! Two runs of one program. `Alike R m R' E` says that `m`, started in two states related by `R`,
ends in the same way twice: with equal results in states related by `R'`, or with the same stop in
states related by `E`. -/

namespace SystemsLab.Effects

variable {ε σ α β : Type}

def SameEnd (R' : α → σ → σ → Prop) (E : σ → σ → Prop) :
    EStateM.Result ε σ α → EStateM.Result ε σ α → Prop
  | .ok a s, .ok b t => a = b ∧ R' a s t
  | .error e s, .error e' t => e = e' ∧ E s t
  | _, _ => False

def Alike (R : σ → σ → Prop) (m : EStateM ε σ α) (R' : α → σ → σ → Prop) (E : σ → σ → Prop) :
    Prop :=
  ∀ s t, R s t → SameEnd R' E (m s) (m t)

variable {R R₀ E : σ → σ → Prop} {R' : α → σ → σ → Prop} {R'' : β → σ → σ → Prop}
  {m m₀ : EStateM ε σ α} {f : α → EStateM ε σ β} {a : α} {e : ε} {p : Prop}

namespace Alike

lemma pure (h : ∀ s t, R s t → R' a s t) : Alike R (Pure.pure a : EStateM ε σ α) R' E :=
  fun s t hst => ⟨rfl, h s t hst⟩

lemma bind (hm : Alike R m R' E) (hf : ∀ a, Alike (R' a) (f a) R'' E) :
    Alike R (m >>= f) R'' E := by
  intro s t hst
  change SameEnd R'' E (EStateM.bind m f s) (EStateM.bind m f t)
  have h := hm s t hst
  rw [EStateM.bind, EStateM.bind]
  cases hs : m s with
  | ok a s' =>
    cases ht : m t with
    | ok b t' =>
      rw [hs, ht] at h
      obtain ⟨rfl, hR⟩ := h
      exact hf a s' t' hR
    | error e t' =>
      rw [hs, ht] at h
      exact h.elim
  | error e s' =>
    cases ht : m t with
    | ok b t' =>
      rw [hs, ht] at h
      exact h.elim
    | error e' t' =>
      rw [hs, ht] at h
      exact h

lemma mono_post {R₁ : α → σ → σ → Prop} (h : Alike R m R' E) (hR : ∀ a s t, R' a s t → R₁ a s t) :
    Alike R m R₁ E := by
  intro s t hst
  have hend := h s t hst
  cases hs : m s with
  | ok a s' =>
    cases ht : m t with
    | ok b t' =>
      rw [hs, ht] at hend
      exact ⟨hend.1, hR a s' t' hend.2⟩
    | error e t' =>
      rw [hs, ht] at hend
      exact hend.elim
  | error e s' =>
    cases ht : m t with
    | ok b t' =>
      rw [hs, ht] at hend
      exact hend.elim
    | error e' t' =>
      rw [hs, ht] at hend
      exact hend

lemma of_fact (h : p → Alike R m R' E) : Alike (fun s t => R s t ∧ p) m R' E :=
  fun s t hst => h hst.2 s t hst.1

lemma of_ends (h : ∀ s t, R s t → ∃ (a : α) (P P' : σ → Prop),
    Ends m (fun b s' => b = a ∧ P s') (fun _ _ => False) s ∧
    Ends m (fun b t' => b = a ∧ P' t') (fun _ _ => False) t ∧
    ∀ s' t', P s' → P' t' → R' a s' t') : Alike R m R' E := by
  intro s t hst
  obtain ⟨a, P, P', hs, ht, hR⟩ := h s t hst
  obtain ⟨b, s', hms, rfl, hP⟩ := hs.exists_ok
  obtain ⟨c, t', hmt, rfl, hP'⟩ := ht.exists_ok
  rw [hms, hmt]
  exact ⟨rfl, hR s' t' hP hP'⟩

lemma modify {g : σ → σ} {R' : PUnit → σ → σ → Prop} (h : ∀ s t, R s t → R' ⟨⟩ (g s) (g t)) :
    Alike R (modify g : EStateM ε σ PUnit) R' E :=
  fun s t hst => ⟨rfl, h s t hst⟩

end Alike

end SystemsLab.Effects
