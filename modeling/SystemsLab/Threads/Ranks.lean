import SystemsLab.Threads.Program
import Mathlib.Algebra.BigOperators.Group.Finset.Basic
import Mathlib.Algebra.Order.BigOperators.Group.Finset

namespace SystemsLab.Threads

namespace Outcome

variable {α β : Type*} {f : α → β} {x : Outcome α} {b : β}

def map (f : α → β) : Outcome α → Outcome β
  | .stuck => .stuck
  | .exit => .exit
  | .next a => .next (f a)

lemma map_next (h : x.map f = .next b) : ∃ a, x = .next a ∧ f a = b := by
  cases x with
  | next a =>
    cases h
    exact ⟨a, rfl, rfl⟩
  | stuck | exit => cases h

lemma map_ne_stuck (h : x ≠ .stuck) : x.map f ≠ .stuck := by
  cases x with
  | stuck => exact absurd rfl h
  | exit | next => rintro ⟨⟩

end Outcome

variable {S A : Type*} {turn : S → A → Outcome S} {J : S → Prop} {rank : S → ℕ} {s s' : S}
  {l l' : List A} {a : A}

def follow (turn : S → A → Outcome S) (s : S) : List A → Option S
  | [] => some s
  | a :: rest =>
    match turn s a with
    | .next s' => follow turn s' rest
    | _ => none

lemma follow_cons (h : follow turn s (a :: l) = some s') :
    ∃ s₁, turn s a = .next s₁ ∧ follow turn s₁ l = some s' := by
  rw [follow] at h
  split at h
  · next s₁ hturn => exact ⟨s₁, hturn, h⟩
  · cases h

lemma follow_invariant (hturn : ∀ s a s', J s → turn s a = .next s' → J s') (hs : J s)
    (h : follow turn s l = some s') : J s' := by
  induction l generalizing s with
  | nil =>
    cases h
    exact hs
  | cons a l ih =>
    obtain ⟨s₁, hfirst, hrest⟩ := follow_cons h
    exact ih (hturn s a s₁ hs hfirst) hrest

lemma length_follow_le
    (hturn : ∀ s a s', J s → turn s a = .next s' → J s' ∧ rank s' < rank s) (hs : J s)
    (h : follow turn s l = some s') : l.length + rank s' ≤ rank s := by
  induction l generalizing s with
  | nil =>
    cases h
    exact (Nat.zero_add _).le
  | cons a l ih =>
    obtain ⟨s₁, hfirst, hrest⟩ := follow_cons h
    obtain ⟨hs₁, hlt⟩ := hturn s a s₁ hs hfirst
    have hle := ih hs₁ hrest
    rw [List.length_cons]
    omega

lemma sum_rank_lt {T : Type*} [Fintype T] {f g : T → ℕ} {t : T} (h : g t < f t)
    (hothers : ∀ u, u ≠ t → g u = f u) : ∑ u, g u < ∑ u, f u := by
  apply Finset.sum_lt_sum
  · intro u _
    by_cases hu : u = t
    · rw [hu]
      exact h.le
    · exact (hothers u hu).le
  · exact ⟨t, Finset.mem_univ t, h⟩

end SystemsLab.Threads
