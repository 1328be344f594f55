import SystemsLab.Threads.Program
import Mathlib.Data.List.Induction

namespace SystemsLab.Threads.Program

variable {T M L D I E : Type*} [DecidableEq T] [DecidableEq M] {P : Program T M L D I}
  {s₀ s s' a b : State T M L D} {t : T} {i : I} {l l' : List (T × I)}

lemma run_append (P : Program T M L D I) (s : State T M L D) (l l' : List (T × I)) :
    P.run s (l ++ l') = (P.run s l).bind fun a => P.run a l' := by
  induction l generalizing s with
  | nil => rfl
  | cons x rest ih =>
    obtain ⟨t, i⟩ := x
    simp only [List.cons_append, run]
    cases P.step s t i with
    | stuck => rfl
    | exit => rfl
    | next a => exact ih a

lemma run_concat : P.run s (l ++ [(t, i)]) = some b ↔
    ∃ a, P.run s l = some a ∧ P.step a t i = .next b := by
  rw [run_append, Option.bind_eq_some_iff]
  refine exists_congr fun a => and_congr_right fun _ => ?_
  simp only [run]
  cases P.step a t i <;> simp

lemma run_induction {J : List (T × I) → State T M L D → Prop} (h₀ : J [] s)
    (hstep : ∀ l a t i b, P.run s l = some a → J l a → P.step a t i = .next b →
      J (l ++ [(t, i)]) b) (h : P.run s l = some s') : J l s' := by
  induction l using List.reverseRecOn generalizing s' with
  | nil =>
    cases h
    exact h₀
  | append_singleton l x ih =>
    obtain ⟨a, hl, he⟩ := run_concat.mp h
    exact hstep l a x.1 x.2 s' hl (ih hl) he

section Records

def trace (P : Program T M L D I) (f : State T M L D → T → I → State T M L D → List E)
    (s : State T M L D) : List (T × I) → List E
  | [] => []
  | (t, i) :: rest =>
    match P.step s t i with
    | .next s' => f s t i s' ++ P.trace f s' rest
    | _ => []

variable {f g : State T M L D → T → I → State T M L D → List E}

lemma trace_append (h : P.run s l = some a) :
    P.trace f s (l ++ l') = P.trace f s l ++ P.trace f a l' := by
  induction l generalizing s with
  | nil =>
    cases h
    rfl
  | cons x rest ih =>
    obtain ⟨t, i⟩ := x
    simp only [run] at h
    split at h
    · rename_i s' he
      simp only [List.cons_append, trace, he]
      rw [ih h, List.append_assoc]
    · cases h

lemma trace_concat (h : P.run s l = some a) (he : P.step a t i = .next b) :
    P.trace f s (l ++ [(t, i)]) = P.trace f s l ++ f a t i b := by
  rw [trace_append h]
  simp only [trace, he, List.append_nil]

lemma trace_balance {pending : State T M L D → List E}
    (hstep : ∀ a t i b, P.Reachable s₀ a → P.step a t i = .next b →
      pending a ++ f a t i b = g a t i b ++ pending b)
    (hs : P.Reachable s₀ s) (h : P.run s l = some s') :
    pending s ++ P.trace f s l = P.trace g s l ++ pending s' := by
  refine run_induction (J := fun l a => pending s ++ P.trace f s l = P.trace g s l ++ pending a)
    ?_ (fun l a t i b hl ih he => ?_) h
  · simp only [trace, List.append_nil, List.nil_append]
  · rw [trace_concat hl he, trace_concat hl he, ← List.append_assoc, ih, List.append_assoc,
      List.append_assoc, hstep a t i b (hs.run hl) he]

end Records

section Along

def Along (P : Program T M L D I) (J : State T M L D → Prop) (s : State T M L D)
    (l : List (T × I)) : Prop :=
  ∀ l₁ l₂ a, l = l₁ ++ l₂ → P.run s l₁ = some a → J a

variable {J : State T M L D → Prop}

lemma Along.last (h : P.Along J s l) (hl : P.run s l = some s') : J s' :=
  h l [] s' (List.append_nil l).symm hl

end Along

section Silent

def Silent (P : Program T M L D I) (t : T) (s : State T M L D) (l : List (T × I)) : Prop :=
  ∀ l₁ i l₂ a b, l = l₁ ++ (t, i) :: l₂ → P.run s l₁ = some a → P.step a t i = .next b →
    b.data = a.data

lemma silent_nil : P.Silent t s [] := by
  intro l₁ i l₂ a b he
  cases l₁ <;> cases he

lemma silent_concat {u : T} (h : P.Silent t s l) (hl : P.run s l = some a)
    (he : P.step a u i = .next b) (hd : u = t → b.data = a.data) :
    P.Silent t s (l ++ [(u, i)]) := by
  intro l₁ j l₂ a' b' hsplit ha hb
  rcases List.eq_nil_or_concat l₂ with rfl | ⟨l₃, x, rfl⟩
  · obtain ⟨rfl, hx⟩ := List.append_inj' hsplit rfl
    cases hx
    obtain rfl : a = a' := Option.some.inj (hl.symm.trans ha)
    rw [he] at hb
    cases hb
    exact hd rfl
  · rw [List.concat_eq_append, ← List.cons_append, ← List.append_assoc] at hsplit
    obtain ⟨rfl, -⟩ := List.append_inj' hsplit rfl
    exact h l₁ j l₃ a' b' rfl ha hb

lemma Silent.data_eq (h : P.Silent t s l) (hrun : P.run s l = some s')
    (halone : ∀ x ∈ l, x.1 = t) : s'.data = s.data := by
  induction l using List.reverseRecOn generalizing s' with
  | nil =>
    cases hrun
    rfl
  | append_singleton l x ih =>
    obtain ⟨a, hl, he⟩ := run_concat.mp hrun
    have hx : x.1 = t := halone x (by simp)
    obtain ⟨u, i⟩ := x
    subst hx
    have hsilent : P.Silent u s l := by
      intro l₁ j l₂ a' b' hsplit
      exact h l₁ j (l₂ ++ [(u, i)]) a' b' (by simp [hsplit])
    rw [h l i [] a s' rfl hl he]
    exact ih hsilent hl fun y hy => halone y (List.mem_append_left _ hy)

end Silent

section Turns

def turns (t : T) (l : List (T × I)) : ℕ := l.countP fun x => x.1 = t

lemma turns_append (t : T) (l l' : List (T × I)) : turns t (l ++ l') = turns t l + turns t l' :=
  List.countP_append

@[simp] lemma turns_self (t : T) (i : I) : turns t [(t, i)] = 1 := by simp [turns]

lemma turns_other {t u : T} (h : u ≠ t) (i : I) : turns t [(u, i)] = 0 := by simp [turns, h]

lemma mem_trace_of_turns {f : State T M L D → T → I → State T M L D → List E} {x : E}
    {B : State T M L D → Prop} {m : State T M L D → ℕ}
    (hother : ∀ a u i b, P.Reachable s₀ a → u ≠ t → P.step a u i = .next b → B a →
      B b ∧ m b = m a)
    (hown : ∀ a i b, P.Reachable s₀ a → P.step a t i = .next b → B a →
      x ∈ f a t i b ∨ B b ∧ m b < m a)
    (hs : P.Reachable s₀ s) (hb : B s) (h : P.run s l = some s') :
    x ∈ P.trace f s l ∨ B s' ∧ m s' + turns t l ≤ m s := by
  refine run_induction
    (J := fun l a => x ∈ P.trace f s l ∨ B a ∧ m a + turns t l ≤ m s) (.inr ⟨hb, Nat.le_refl _⟩)
    (fun l a u i b hl ih he => ?_) h
  rw [trace_concat hl he, List.mem_append, turns_append]
  rcases ih with hx | ⟨hb, hm⟩
  · exact .inl (.inl hx)
  · by_cases hu : u = t
    · subst u
      rw [turns_self]
      rcases hown a i b (hs.run hl) he hb with hx | ⟨hb', hlt⟩
      · exact .inl (.inr hx)
      · exact .inr ⟨hb', by omega⟩
    · rw [turns_other hu]
      obtain ⟨hb', hm'⟩ := hother a u i b (hs.run hl) hu he hb
      exact .inr ⟨hb', by omega⟩

end Turns

end SystemsLab.Threads.Program
