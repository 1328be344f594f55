import Mathlib.Logic.Function.Basic

/-! Threads that share data and synchronise through mutexes only. The code of a thread is cut at
its mutex operations: a step performs the operation its thread stands at, and then runs the thread
up to the next one. -/

namespace SystemsLab.Threads

inductive Op (M : Type*) where
  | lock (m : M)
  | unlock (m : M)
  | internal

/-- `exit` ends the whole process, `stuck` says that the thread cannot run now. -/
inductive Outcome (α : Type*) where
  | stuck
  | exit
  | next (a : α)

/-- Threads `T`, mutexes `M`, control points `L`, shared data `D`. What the environment decides
(the results of system calls) is an input from `I`. -/
structure Program (T M L D I : Type*) where
  op : T → L → Op M
  code : T → L → I → D → Outcome (D × L)

structure State (T M L D : Type*) where
  data : D
  pc : T → L
  owner : M → Option T

variable {T M L D I : Type*} [DecidableEq T]

namespace Program

def advance (P : Program T M L D I) (s : State T M L D) (t : T) (i : I)
    (owner : M → Option T) : Outcome (State T M L D) :=
  match P.code t (s.pc t) i s.data with
  | .stuck => .stuck
  | .exit => .exit
  | .next (d, l) => .next ⟨d, Function.update s.pc t l, owner⟩

lemma advance_next {P : Program T M L D I} {s s' : State T M L D} {t : T} {i : I}
    {owner : M → Option T} (h : P.advance s t i owner = .next s') :
    ∃ d l, P.code t (s.pc t) i s.data = .next (d, l) ∧
      s' = ⟨d, Function.update s.pc t l, owner⟩ := by
  rw [advance] at h
  split at h
  · cases h
  · cases h
  · rename_i d l hc
    cases h
    exact ⟨d, l, hc, rfl⟩

variable [DecidableEq M]

def step (P : Program T M L D I) (s : State T M L D) (t : T) (i : I) :
    Outcome (State T M L D) :=
  match P.op t (s.pc t) with
  | .lock m =>
    match s.owner m with
    | none => P.advance s t i (Function.update s.owner m (some t))
    | some _ => .stuck
  | .unlock m => P.advance s t i (Function.update s.owner m none)
  | .internal => P.advance s t i s.owner

def start (d : D) (l : T → L) : State T M L D := ⟨d, l, fun _ => none⟩

inductive Reachable (P : Program T M L D I) (s₀ : State T M L D) : State T M L D → Prop
  | init : Reachable P s₀ s₀
  | step {s s' : State T M L D} {t : T} {i : I} :
      Reachable P s₀ s → P.step s t i = .next s' → Reachable P s₀ s'

def Blocked (P : Program T M L D I) (s : State T M L D) (t : T) : Prop :=
  ∃ m u, P.op t (s.pc t) = .lock m ∧ s.owner m = some u

def CanStep (P : Program T M L D I) (s : State T M L D) (t : T) : Prop :=
  ∃ i, P.step s t i ≠ .stuck

def ownerAfter (owner : M → Option T) (t : T) : Op M → M → Option T
  | .lock m => Function.update owner m (some t)
  | .unlock m => Function.update owner m none
  | .internal => owner

lemma step_next {P : Program T M L D I} {s s' : State T M L D} {t : T} {i : I}
    (h : P.step s t i = .next s') :
    (∀ m, P.op t (s.pc t) = .lock m → s.owner m = none) ∧
      ∃ d l, P.code t (s.pc t) i s.data = .next (d, l) ∧
        s' = ⟨d, Function.update s.pc t l, ownerAfter s.owner t (P.op t (s.pc t))⟩ := by
  cases ho : P.op t (s.pc t) with
  | lock m =>
    cases hm : s.owner m with
    | none =>
      simp only [step, ho, hm] at h
      refine ⟨?_, advance_next h⟩
      rintro _ ⟨⟩
      exact hm
    | some u => simp [step, ho, hm] at h
  | unlock m =>
    simp only [step, ho] at h
    exact ⟨by simp, advance_next h⟩
  | internal =>
    simp only [step, ho] at h
    exact ⟨by simp, advance_next h⟩

lemma step_pc_ne {P : Program T M L D I} {s s' : State T M L D} {t u : T} {i : I}
    (h : P.step s t i = .next s') (hu : u ≠ t) : s'.pc u = s.pc u := by
  obtain ⟨-, d, l, -, rfl⟩ := step_next h
  exact Function.update_of_ne hu _ _

lemma step_exit {P : Program T M L D I} {s : State T M L D} {t : T} {i : I}
    (h : P.step s t i = .exit) : P.code t (s.pc t) i s.data = .exit := by
  have ha : ∀ owner, P.advance s t i owner = .exit → P.code t (s.pc t) i s.data = .exit := by
    intro owner he
    rw [advance] at he
    split at he
    · cases he
    · assumption
    · cases he
  cases ho : P.op t (s.pc t) with
  | lock m =>
    cases hm : s.owner m with
    | none =>
      simp only [step, ho, hm] at h
      exact ha _ h
    | some u => simp [step, ho, hm] at h
  | unlock m =>
    simp only [step, ho] at h
    exact ha _ h
  | internal =>
    simp only [step, ho] at h
    exact ha _ h

lemma step_ne_stuck_of_code {P : Program T M L D I} {s : State T M L D} {t : T} {i : I}
    (hb : ¬ P.Blocked s t) (hc : P.code t (s.pc t) i s.data ≠ .stuck) : P.step s t i ≠ .stuck := by
  have ha : ∀ owner, P.advance s t i owner ≠ .stuck := by
    intro owner
    rw [advance]
    cases h : P.code t (s.pc t) i s.data with
    | stuck => exact absurd h hc
    | exit => simp
    | next a => simp
  cases ho : P.op t (s.pc t) with
  | lock m =>
    cases hm : s.owner m with
    | none => simpa only [step, ho, hm] using ha _
    | some u => exact absurd ⟨m, u, ho, hm⟩ hb
  | unlock m => simpa only [step, ho] using ha _
  | internal => simpa only [step, ho] using ha _

lemma canStep_of_code {P : Program T M L D I} {s : State T M L D} {t : T} {i : I}
    (hb : ¬ P.Blocked s t) (hc : P.code t (s.pc t) i s.data ≠ .stuck) : P.CanStep s t :=
  ⟨i, step_ne_stuck_of_code hb hc⟩

def run (P : Program T M L D I) (s : State T M L D) : List (T × I) → Option (State T M L D)
  | [] => some s
  | (t, i) :: rest =>
    match P.step s t i with
    | .next s' => P.run s' rest
    | _ => none

lemma Reachable.run {P : Program T M L D I} {s₀ s s' : State T M L D} {l : List (T × I)}
    (hs : P.Reachable s₀ s) (h : P.run s l = some s') : P.Reachable s₀ s' := by
  induction l generalizing s with
  | nil =>
    cases h
    exact hs
  | cons x rest ih =>
    obtain ⟨t, i⟩ := x
    simp only [Program.run] at h
    split at h
    · exact ih (hs.step ‹_›) h
    · cases h

lemma Reachable.invariant {P : Program T M L D I} {s₀ s : State T M L D}
    (J : State T M L D → Prop) (hs : P.Reachable s₀ s) (h₀ : J s₀)
    (hstep : ∀ a b t i, P.Reachable s₀ a → J a → P.step a t i = .next b → J b) : J s := by
  induction hs with
  | init => exact h₀
  | step hr he ih => exact hstep _ _ _ _ hr ih he

end Program

end SystemsLab.Threads
