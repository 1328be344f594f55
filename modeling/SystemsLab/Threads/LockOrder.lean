import SystemsLab.Threads.Ownership
import Mathlib.Logic.Relation

namespace SystemsLab.Threads

open Relation

variable {T M L D I : Type*}
variable {P : Program T M L D I} {s : State T M L D}

def Program.WaitsFor (P : Program T M L D I) (s : State T M L D) (t u : T) : Prop :=
  ∃ m, P.op t (s.pc t) = .lock m ∧ s.owner m = some u

namespace Discipline

def Ordered (K : Discipline P) (rank : M → ℕ) : Prop :=
  ∀ t l m m', P.op t l = .lock m → m' ∈ K.held t l → rank m' < rank m

variable {K : Discipline P} {rank : M → ℕ}

lemma rank_lt (hr : K.Ordered rank) (ho : K.Owns s) {u : T} {m m' : M}
    (hu : s.owner m = some u) (hm' : P.op u (s.pc u) = .lock m') : rank m < rank m' :=
  hr u _ m' m hm' ((ho m u).mp hu)

lemma chain_rank (hr : K.Ordered rank) (ho : K.Owns s) {t u : T}
    (h : TransGen (P.WaitsFor s) t u) {m m' : M} (hm : P.op t (s.pc t) = .lock m)
    (hm' : P.op u (s.pc u) = .lock m') : rank m < rank m' := by
  induction h generalizing m' with
  | single hw =>
    obtain ⟨m₀, h₀, hown⟩ := hw
    obtain rfl : m = m₀ := by simpa [hm] using h₀
    exact rank_lt hr ho hown hm'
  | tail _ hw ih =>
    obtain ⟨m₁, h₁, hown⟩ := hw
    exact (ih h₁).trans (rank_lt hr ho hown hm')

theorem acyclic (hr : K.Ordered rank) (ho : K.Owns s) (t : T) :
    ¬ TransGen (P.WaitsFor s) t t := by
  intro h
  obtain ⟨m, hm, _⟩ : ∃ m, P.op t (s.pc t) = .lock m ∧ True := by
    rcases TransGen.head'_iff.mp h with ⟨_, ⟨m, hm, _⟩, _⟩
    exact ⟨m, hm, trivial⟩
  exact lt_irrefl _ (chain_rank hr ho h hm hm)

theorem chain_end (hr : K.Ordered rank) (ho : K.Owns s) {N : ℕ} (hN : ∀ m, rank m ≤ N)
    {t : T} (hb : P.Blocked s t) :
    ∃ u m, TransGen (P.WaitsFor s) t u ∧ s.owner m = some u ∧ ¬ P.Blocked s u := by
  obtain ⟨m, u, hm, hu⟩ := hb
  induction hk : N - rank m using Nat.strong_induction_on generalizing t m u with
  | _ k ih =>
    have hw : P.WaitsFor s t u := ⟨m, hm, hu⟩
    by_cases hb : P.Blocked s u
    · obtain ⟨m', v, hm', hv⟩ := hb
      have hlt := rank_lt hr ho hu hm'
      have hle := hN m'
      obtain ⟨x, m₁, hx, hown, hnot⟩ := ih (N - rank m') (by omega) m' v hm' hv rfl
      exact ⟨x, m₁, hx.head hw, hown, hnot⟩
    · exact ⟨u, m, .single hw, hu, hb⟩

end Discipline

end SystemsLab.Threads
