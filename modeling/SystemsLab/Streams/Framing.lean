import Mathlib.Data.List.Infix

namespace SystemsLab.Streams

/-- What is left to read, and the environment that decides how it is read. -/
structure Input (B E : Type) where
  bytes : List B
  env : E

abbrev Reader (B E α : Type) := StateT (Input B E) Option α

variable {B E α β : Type}

structure Decodes (m : Reader B E α) (b : List B) (a : α) : Prop where
  whole : ∀ rest e, ∃ e', m ⟨b ++ rest, e⟩ = some (a, ⟨rest, e'⟩)
  cut : ∀ p e, p <+: b → p ≠ b → m ⟨p, e⟩ = none

namespace Decodes

variable {m : Reader B E α} {f : α → Reader B E β} {b b' : List B} {a : α} {a' : β}

lemma pure (a : α) : Decodes (Pure.pure a : Reader B E α) [] a where
  whole _ e := ⟨e, rfl⟩
  cut _ _ hp hne := absurd (List.prefix_nil.mp hp) hne

lemma bind (hm : Decodes m b a) (hf : Decodes (f a) b' a') : Decodes (m >>= f) (b ++ b') a' := by
  constructor
  · intro rest e
    obtain ⟨e₁, h₁⟩ := hm.whole (b' ++ rest) e
    obtain ⟨e₂, h₂⟩ := hf.whole rest e₁
    refine ⟨e₂, ?_⟩
    change (m ⟨b ++ b' ++ rest, e⟩).bind _ = _
    rw [List.append_assoc, h₁]
    exact h₂
  · intro p e hp hne
    change (m ⟨p, e⟩).bind _ = none
    rcases List.prefix_or_prefix_of_prefix hp (List.prefix_append b b') with hpb | ⟨q, rfl⟩
    · by_cases he : p = b
      · subst p
        obtain ⟨e₁, h₁⟩ := hm.whole [] e
        rw [List.append_nil] at h₁
        rw [h₁]
        refine hf.cut [] e₁ List.nil_prefix ?_
        rintro rfl
        exact hne (List.append_nil b).symm
      · rw [hm.cut p e hpb he]
        rfl
    · obtain ⟨e₁, h₁⟩ := hm.whole q e
      rw [h₁]
      refine hf.cut q e₁ ((List.prefix_append_right_inj b).mp hp) ?_
      rintro rfl
      exact hne rfl

lemma map (hm : Decodes m b a) (g : α → β) :
    Decodes (m >>= fun x => Pure.pure (g x)) b (g a) := by
  have h := hm.bind (f := fun x => Pure.pure (g x)) (Decodes.pure (g a))
  rwa [List.append_nil] at h

end Decodes

def attempts (m : Reader B E α) : ℕ → Input B E → List (Option α)
  | 0, _ => []
  | k + 1, i =>
    match m i with
    | none => [none]
    | some (a, i') => some a :: attempts m k i'

def arrived (frame : α → List B) : ℕ → List α → List α
  | _, [] => []
  | n, a :: as =>
    if (frame a).length ≤ n then a :: arrived frame (n - (frame a).length) as else []

lemma attempts_take {m : Reader B E α} {frame : α → List B} {as : List α}
    (hm : ∀ a ∈ as, Decodes m (frame a) a) (hnil : ∀ e, m ⟨[], e⟩ = none) (n k : ℕ) (e : E) :
    attempts m k ⟨(as.flatMap frame).take n, e⟩ =
      ((arrived frame n as).map some ++ [none]).take k := by
  induction as generalizing n k e with
  | nil =>
    cases k with
    | zero => rfl
    | succ k => simp [attempts, arrived, hnil]
  | cons a as ih =>
    cases k with
    | zero => rfl
    | succ k =>
      have ha := hm a List.mem_cons_self
      rw [List.flatMap_cons, List.take_append, arrived]
      by_cases hlen : (frame a).length ≤ n
      · obtain ⟨e', he'⟩ := ha.whole ((as.flatMap frame).take (n - (frame a).length)) e
        rw [List.take_of_length_le hlen, attempts, he', if_pos hlen]
        simp only [List.map_cons, List.cons_append, List.take_succ_cons]
        rw [ih (fun x hx => hm x (List.mem_cons_of_mem a hx))]
      · have hrest : n - (frame a).length = 0 := by omega
        have hne : (frame a).take n ≠ frame a := by
          intro he
          have hl := congrArg List.length he
          rw [List.length_take] at hl
          omega
        rw [hrest, List.take_zero, List.append_nil, attempts,
          ha.cut _ e (List.take_prefix n _) hne, if_neg hlen]
        simp

/-- What has been written, and the environment that decides how it is written. -/
abbrev Writer (B E : Type) := List B × E → List B × E

def Writes (m : Writer B E) (b : List B) : Prop := ∀ out e, ∃ e', m (out, e) = (out ++ b, e')

namespace Writes

variable {m m' : Writer B E} {b b' : List B}

lemma id : Writes (id : Writer B E) [] := fun out e => ⟨e, by rw [List.append_nil]; rfl⟩

lemma comp (hm : Writes m b) (hm' : Writes m' b') : Writes (m' ∘ m) (b ++ b') := by
  intro out e
  obtain ⟨e₁, h₁⟩ := hm out e
  obtain ⟨e₂, h₂⟩ := hm' (out ++ b) e₁
  refine ⟨e₂, ?_⟩
  rw [Function.comp_apply, h₁, h₂, List.append_assoc]

lemma foldl {send : α → Writer B E} {frame : α → List B} {as : List α}
    (h : ∀ a ∈ as, Writes (send a) (frame a)) :
    Writes (fun o => as.foldl (fun o a => send a o) o) (as.flatMap frame) := by
  induction as with
  | nil => exact Writes.id
  | cons a as ih =>
    rw [List.flatMap_cons]
    exact (h a List.mem_cons_self).comp (ih fun x hx => h x (List.mem_cons_of_mem a hx))

end Writes

end SystemsLab.Streams
