import Mathlib.Logic.Basic

/-! Programs over a state that may stop early. `Ends m Q E s` says how `m` ends when it is started
in `s`: with a result and a state that satisfy `Q`, or with a stop and a state that satisfy `E`. -/

namespace SystemsLab.Effects

variable {ε σ α β : Type}

def Ends (m : EStateM ε σ α) (Q : α → σ → Prop) (E : ε → σ → Prop) (s : σ) : Prop :=
  match m s with
  | .ok a s' => Q a s'
  | .error e s' => E e s'

variable {m : EStateM ε σ α} {f : α → EStateM ε σ β} {Q Q' : α → σ → Prop} {R : β → σ → Prop}
  {E E' : ε → σ → Prop} {s s' : σ} {a : α} {e : ε}

lemma Ends.ok (h : Ends m Q E s) (hm : m s = .ok a s') : Q a s' := by
  simpa only [Ends, hm] using h

lemma Ends.error (h : Ends m Q E s) (hm : m s = .error e s') : E e s' := by
  simpa only [Ends, hm] using h

lemma Ends.mono (h : Ends m Q E s) (hQ : ∀ a s', Q a s' → Q' a s') (hE : ∀ e s', E e s' → E' e s') :
    Ends m Q' E' s := by
  cases hm : m s with
  | ok a s' =>
    have hq := hQ a s' (h.ok hm)
    simpa only [Ends, hm] using hq
  | error e s' =>
    have he := hE e s' (h.error hm)
    simpa only [Ends, hm] using he

lemma Ends.imp (h : Ends m Q E s) (hQ : ∀ a s', Q a s' → Q' a s') : Ends m Q' E s :=
  h.mono hQ (fun _ _ he => he)

lemma Ends.and (h : Ends m Q E s) (h' : Ends m Q' E' s) :
    Ends m (fun a s' => Q a s' ∧ Q' a s') (fun e s' => E e s' ∧ E' e s') s := by
  cases hm : m s with
  | ok a s' =>
    have hq := And.intro (h.ok hm) (h'.ok hm)
    simpa only [Ends, hm] using hq
  | error e s' =>
    have he := And.intro (h.error hm) (h'.error hm)
    simpa only [Ends, hm] using he

lemma ends_of_ok (hm : m s = .ok a s') (h : Q a s') : Ends m Q E s := by
  simpa only [Ends, hm] using h

lemma Ends.exists_ok (h : Ends m Q (fun _ _ => False) s) : ∃ a s', m s = .ok a s' ∧ Q a s' := by
  cases hm : m s with
  | ok a s' => exact ⟨a, s', rfl, h.ok hm⟩
  | error e s' => exact (h.error hm).elim

@[simp] lemma ends_pure : Ends (pure a : EStateM ε σ α) Q E s ↔ Q a s := Iff.rfl

@[simp] lemma ends_bind :
    Ends (m >>= f) R E s ↔ Ends m (fun a s' => Ends (f a) R E s') E s := by
  change (match EStateM.bind m f s with
    | .ok b s' => R b s'
    | .error e s' => E e s') ↔ _
  rw [Ends, EStateM.bind]
  cases m s with
  | ok a s' => exact Iff.rfl
  | error e s' => exact Iff.rfl

@[simp] lemma ends_throw : Ends (throw e : EStateM ε σ α) Q E s ↔ E e s := Iff.rfl

@[simp] lemma ends_get {Q : σ → σ → Prop} : Ends (get : EStateM ε σ σ) Q E s ↔ Q s s := Iff.rfl

@[simp] lemma ends_modify {g : σ → σ} {Q : PUnit → σ → Prop} :
    Ends (modify g : EStateM ε σ PUnit) Q E s ↔ Q ⟨⟩ (g s) := Iff.rfl

@[simp] lemma ends_ite {c : Prop} [Decidable c] {m' : EStateM ε σ α} :
    Ends (if c then m else m') Q E s ↔ (c → Ends m Q E s) ∧ (¬c → Ends m' Q E s) := by
  by_cases hc : c
  · simp [hc]
  · simp [hc]

lemma ends_forM {γ : Type} {g : γ → EStateM ε σ PUnit} {P : σ → Prop} {l : List γ}
    (h : ∀ x ∈ l, ∀ s, P s → Ends (g x) (fun _ => P) E s) (hs : P s) :
    Ends (l.forM g) (fun _ => P) E s := by
  induction l generalizing s with
  | nil => exact hs
  | cons x l ih =>
    change Ends (g x >>= fun _ => l.forM g) _ _ _
    rw [ends_bind]
    refine (h x List.mem_cons_self s hs).imp fun _ s' hs' => ?_
    exact ih (fun y hy => h y (List.mem_cons_of_mem x hy)) hs'

lemma ends_foldlM {γ : Type} {g : α → γ → EStateM ε σ α} {P : σ → Prop} {l : List γ}
    (h : ∀ x ∈ l, ∀ b s, P s → Ends (g b x) (fun _ => P) E s) (hs : P s) :
    Ends (l.foldlM g a) (fun _ => P) E s := by
  induction l generalizing s a with
  | nil => exact hs
  | cons x l ih =>
    change Ends (g a x >>= fun b => l.foldlM g b) _ _ _
    rw [ends_bind]
    refine (h x List.mem_cons_self a s hs).imp fun b s' hs' => ?_
    exact ih (fun y hy => h y (List.mem_cons_of_mem x hy)) hs'

lemma ends_foldlM_append {γ : Type} {g : α → γ → EStateM ε σ α} {l l' : List γ} :
    Ends ((l ++ l').foldlM g a) Q E s ↔
      Ends (l.foldlM g a) (fun b => Ends (l'.foldlM g b) Q E) E s := by
  induction l generalizing s a with
  | nil => exact Iff.rfl
  | cons x l ih =>
    change Ends (g a x >>= fun b => (l ++ l').foldlM g b) Q E s ↔
      Ends (g a x >>= fun b => l.foldlM g b) _ E s
    simp only [ends_bind, ih]

def Reads (m : EStateM ε σ α) : Prop := ∀ s, Ends m (fun _ s' => s' = s) (fun _ s' => s' = s) s

lemma Reads.ends (h : Reads m) {P : σ → Prop} (hQ : ∀ a, Q a s) (hP : P s) :
    Ends m Q (fun _ => P) s := by
  refine (h s).mono ?_ ?_
  · rintro a s' rfl
    exact hQ a
  · rintro e s' rfl
    exact hP

lemma reads_pure : Reads (pure a : EStateM ε σ α) := fun _ => rfl

lemma reads_throw : Reads (throw e : EStateM ε σ α) := fun _ => rfl

lemma reads_get : Reads (get : EStateM ε σ σ) := fun _ => rfl

lemma Reads.bind (hm : Reads m) (hf : ∀ a, Reads (f a)) : Reads (m >>= f) := by
  intro s
  rw [ends_bind]
  refine (hm s).imp ?_
  rintro a s' rfl
  exact hf a s'

lemma Reads.ite {c : Prop} [Decidable c] {m' : EStateM ε σ α} (hm : Reads m) (hm' : Reads m') :
    Reads (if c then m else m') := by
  by_cases hc : c
  · rwa [if_pos hc]
  · rwa [if_neg hc]

end SystemsLab.Effects
