import SystemsLab.Threads.Program
import Mathlib.Data.Set.Insert

namespace SystemsLab.Threads

variable {T M L D I : Type*}

def Op.apply : Op M → Set M → Set M
  | lock m, S => insert m S
  | unlock m, S => S \ {m}
  | internal, S => S

/-- An assignment of the mutexes a thread holds to its control points that agrees with the mutex
operations of the program. -/
structure Discipline (P : Program T M L D I) where
  held : T → L → Set M
  unlock : ∀ {t l m}, P.op t l = .unlock m → m ∈ held t l
  next : ∀ {t l i d d' l'}, P.code t l i d = .next (d', l') →
    held t l' = (P.op t l).apply (held t l)

namespace Discipline

variable {P : Program T M L D I} {s₀ s s' : State T M L D}

def Owns (K : Discipline P) (s : State T M L D) : Prop :=
  ∀ m t, s.owner m = some t ↔ m ∈ K.held t (s.pc t)

lemma Owns.exclusive {K : Discipline P} (ho : K.Owns s) {m : M} {t u : T}
    (ht : m ∈ K.held t (s.pc t)) (hu : m ∈ K.held u (s.pc u)) : t = u := by
  have h := (ho m t).mpr ht
  rw [(ho m u).mpr hu] at h
  exact (Option.some.inj h).symm

variable [DecidableEq T] [DecidableEq M]

lemma owns_step (K : Discipline P) {t : T} {i : I} (ho : K.Owns s)
    (h : P.step s t i = .next s') : K.Owns s' := by
  obtain ⟨hfree, d, l, hc, rfl⟩ := Program.step_next h
  have hheld := K.next hc
  intro m u
  by_cases hu : u = t
  · subst hu
    cases hop : P.op u (s.pc u) with
    | lock m₀ => by_cases hm : m = m₀ <;> simp [Program.ownerAfter, Op.apply, hheld, hop, hm, ho m u]
    | unlock m₀ =>
      by_cases hm : m = m₀ <;> simp [Program.ownerAfter, Op.apply, hheld, hop, hm, ho m u]
    | internal => simp [Program.ownerAfter, Op.apply, hheld, hop, ho m u]
  · cases hop : P.op t (s.pc t) with
    | lock m₀ =>
      by_cases hm : m = m₀
      · subst hm
        have hnot : m ∉ K.held u (s.pc u) := fun hin => by
          simpa [(ho m u).mpr hin] using hfree m hop
        simp [Program.ownerAfter, hu, hnot, Ne.symm hu]
      · simp [Program.ownerAfter, hm, hu, ho m u]
    | unlock m₀ =>
      by_cases hm : m = m₀
      · subst hm
        have hnot : m ∉ K.held u (s.pc u) := fun hin => hu (ho.exclusive hin (K.unlock hop))
        simp [Program.ownerAfter, hu, hnot]
      · simp [Program.ownerAfter, hm, hu, ho m u]
    | internal => simp [Program.ownerAfter, hu, ho m u]

def Fresh (K : Discipline P) (l : T → L) : Prop := ∀ t, K.held t (l t) = ∅

lemma owns (K : Discipline P) {d : D} {l : T → L} (hl : K.Fresh l)
    (hs : P.Reachable (Program.start d l) s) : K.Owns s := by
  refine hs.invariant K.Owns ?_ fun _ _ _ _ _ ho he => K.owns_step ho he
  intro m t
  simp [Program.start, hl t]

lemma Owns.alone {K : Discipline P} (ho : K.Owns s) {t u : T} {i : I} {d : D} {l : L} {m : M}
    (h : P.step s t i = .next s') (hc : P.code t (s.pc t) i s.data = .next (d, l)) (hu : u ≠ t)
    (hm : m ∈ K.held t (s.pc t) ∨ m ∈ K.held t l) : m ∉ K.held u (s.pc u) := by
  intro hin
  rcases hm with hm | hm
  · exact hu (ho.exclusive hin hm)
  · obtain ⟨_, d', l', hc', rfl⟩ := Program.step_next h
    obtain ⟨rfl, rfl⟩ : d = d' ∧ l = l' := by simpa [hc] using hc'
    have ho' := K.owns_step ho h
    exact hu (ho'.exclusive (t := u) (u := t) (by simpa [hu] using hin) (by simpa using hm))

end Discipline

end SystemsLab.Threads
