import Mathlib.Data.Fintype.Defs
import Mathlib.Data.Finset.Card
import Mathlib.Data.Finset.Insert
import Mathlib.Logic.Function.Basic

/-! Monitors: operations under one lock that wait on conditions, any number of threads, and the
rule against lost wakeups. -/

namespace SystemsLab.Threads

/-- `enter op s` is one stay of `op` under the lock: up to the next wait (`none`), or to the end,
with the condition that it signals there. -/
structure Monitor (Op S R C : Type*) where
  enter : Op → S → Option (S × R × C)
  awaits : Op → C

inductive Place (Op : Type*) where
  | outside
  | ready (op : Op)
  | waiting (op : Op)

namespace Place

variable {Op C : Type*}

def waitsOn (awaits : Op → C) : Place Op → Option C
  | waiting op => some (awaits op)
  | _ => none

def readyOn (awaits : Op → C) : Place Op → Option C
  | ready op => some (awaits op)
  | _ => none

def woken : Place Op → Place Op
  | waiting op => ready op
  | p => p

end Place

namespace Monitor

structure Moment (T Op S R : Type*) where
  shared : S
  place : T → Place Op
  log : List (Op × R)

variable {T Op S R C : Type*}

def readyThreads [Fintype T] [DecidableEq C] (M : Monitor Op S R C) (s : Moment T Op S R) (c : C) :
    Finset T :=
  Finset.univ.filter fun t => (s.place t).readyOn M.awaits = some c

def Alert [Fintype T] [DecidableEq C] (M : Monitor Op S R C) (demand : C → S → ℕ)
    (s : Moment T Op S R) : Prop :=
  ∀ c, (∃ t, (s.place t).waitsOn M.awaits = some c) → demand c s.shared ≤ (M.readyThreads s c).card

variable [DecidableEq T] (M : Monitor Op S R C)

structure Wakes (s : Moment T Op S R) (c : C) (woken : Finset T) : Prop where
  waits : ∀ t ∈ woken, (s.place t).waitsOn M.awaits = some c
  nonempty : (∃ t, (s.place t).waitsOn M.awaits = some c) → woken.Nonempty

def wakeAll (woken : Finset T) (place : T → Place Op) (t : T) : Place Op :=
  if t ∈ woken then (place t).woken else place t

inductive Step : Moment T Op S R → Moment T Op S R → Prop
  | call {s} (t : T) (op : Op) (h : s.place t = .outside) :
    Step s { s with place := Function.update s.place t (.ready op) }
  | wait {s} {t : T} {op : Op} (h : s.place t = .ready op) (hblocked : M.enter op s.shared = none) :
    Step s { s with place := Function.update s.place t (.waiting op) }
  | done {s} {t : T} {op : Op} {shared : S} {r : R} {c : C} {woken : Finset T}
    (h : s.place t = .ready op) (henter : M.enter op s.shared = some (shared, r, c))
    (hwakes : M.Wakes s c woken) :
    Step s ⟨shared, Function.update (wakeAll woken s.place) t .outside, s.log ++ [(op, r)]⟩
  | spurious {s} {t : T} {op : Op} (h : s.place t = .waiting op) :
    Step s { s with place := Function.update s.place t (.ready op) }

def initial (T : Type*) (Op R : Type*) {S : Type*} (shared : S) : Moment T Op S R :=
  ⟨shared, fun _ => .outside, []⟩

inductive Reachable (shared : S) : Moment T Op S R → Prop
  | init : Reachable shared (initial T Op R shared)
  | step {s s'} (h : Reachable shared s) (hs : M.Step s s') : Reachable shared s'

variable {M} {shared : S} {s s' : Moment T Op S R} {c d : C} {t : T} {op : Op} {r : R}
  {inv : S → Prop} {demand : C → S → ℕ}

lemma Reachable.induction {P : S → List (Op × R) → Prop} (h : M.Reachable shared s)
    (hinit : P shared [])
    (henter : ∀ s log op s' r c, P s log → M.enter op s = some (s', r, c) → P s' (log ++ [(op, r)])) :
    P s.shared s.log := by
  induction h with
  | init => exact hinit
  | step _ hs ih =>
    cases hs with
    | call t op h => exact ih
    | wait h hblocked => exact ih
    | done h hend hwakes => exact henter _ _ _ _ _ _ ih hend
    | spurious h => exact ih

/-- How many operations that wait on a condition could end, one after the other: an operation that
ends uses up one, and its signal makes up for one more. -/
structure Demand (M : Monitor Op S R C) [DecidableEq C] (inv : S → Prop) (demand : C → S → ℕ) :
    Prop where
  keeps : ∀ {op s s' r c}, inv s → M.enter op s = some (s', r, c) → inv s'
  blocked : ∀ {op s}, inv s → M.enter op s = none → demand (M.awaits op) s = 0
  ended : ∀ {op s s' r c}, inv s → M.enter op s = some (s', r, c) → ∀ d,
    demand d s' + (if M.awaits op = d then 1 else 0) ≤ demand d s + (if c = d then 1 else 0)

lemma waitsOn_update_ready {place : T → Place Op} {u : T}
    (h : (Function.update place t (.ready op) u).waitsOn M.awaits = some c) :
    (place u).waitsOn M.awaits = some c := by
  by_cases hu : u = t
  · subst hu
    simp [Place.waitsOn] at h
  · simpa [hu] using h

lemma readyOn_update_ready {place : T → Place Op} {u : T} (ht : (place t).readyOn M.awaits = none)
    (h : (place u).readyOn M.awaits = some c) :
    (Function.update place t (.ready op) u).readyOn M.awaits = some c := by
  have hu : u ≠ t := by
    rintro rfl
    simp [ht] at h
  simpa [hu] using h

lemma readyOn_of_woken {p : Place Op} (h : p.waitsOn M.awaits = some c) :
    p.woken.readyOn M.awaits = some c := by
  cases p with
  | outside => cases h
  | ready op => cases h
  | waiting op => exact h

lemma waitsOn_woken (p : Place Op) : p.woken.waitsOn M.awaits = none := by
  cases p <;> rfl

lemma readyOn_eq_none {p : Place Op} (h : p.waitsOn M.awaits = some c) : p.readyOn M.awaits = none := by
  cases p with
  | outside => rfl
  | ready op => cases h
  | waiting op => rfl

section Done

variable {woken : Finset T} {u : T}

lemma waitsOn_done
    (h : (Function.update (wakeAll woken s.place) t .outside u).waitsOn M.awaits = some d) :
    (s.place u).waitsOn M.awaits = some d := by
  by_cases hu : u = t
  · subst hu
    simp [Place.waitsOn] at h
  · by_cases hw : u ∈ woken
    · simp [hu, wakeAll, hw, waitsOn_woken] at h
    · simpa [hu, wakeAll, hw] using h

lemma readyOn_done (hwakes : M.Wakes s c woken) (hu : u ≠ t)
    (h : (s.place u).readyOn M.awaits = some d) :
    (Function.update (wakeAll woken s.place) t .outside u).readyOn M.awaits = some d := by
  have hw : u ∉ woken := by
    intro hw
    simp [readyOn_eq_none (hwakes.waits u hw)] at h
  simpa [hu, wakeAll, hw] using h

lemma readyOn_done_woken (hwakes : M.Wakes s c woken) (hu : u ≠ t) (hw : u ∈ woken) :
    (Function.update (wakeAll woken s.place) t .outside u).readyOn M.awaits = some c := by
  simpa [hu, wakeAll, hw] using readyOn_of_woken (hwakes.waits u hw)

end Done

section Wakeups

variable [Fintype T] [DecidableEq C]

omit [DecidableEq T] in
lemma mem_readyThreads : t ∈ M.readyThreads s c ↔ (s.place t).readyOn M.awaits = some c := by
  simp [readyThreads]

lemma Alert.ready (h : Alert M demand s) (ht : (s.place t).readyOn M.awaits = none) :
    Alert M demand { s with place := Function.update s.place t (.ready op) } := by
  rintro c ⟨u, hu⟩
  apply (h c ⟨u, waitsOn_update_ready hu⟩).trans
  apply Finset.card_le_card
  intro v hv
  rw [mem_readyThreads] at hv ⊢
  exact readyOn_update_ready ht hv

lemma Alert.wait (h : Alert M demand s) (ht : s.place t = .ready op)
    (hzero : demand (M.awaits op) s.shared = 0) :
    Alert M demand { s with place := Function.update s.place t (.waiting op) } := by
  rintro c ⟨u, hu⟩
  by_cases hc : M.awaits op = c
  · subst hc
    simp [hzero]
  · have hu' : (s.place u).waitsOn M.awaits = some c := by
      by_cases hut : u = t
      · subst hut
        simp [Place.waitsOn, hc] at hu
      · simpa [hut] using hu
    apply (h c ⟨u, hu'⟩).trans
    apply Finset.card_le_card
    intro v hv
    rw [mem_readyThreads] at hv ⊢
    have hvt : v ≠ t := by
      rintro rfl
      simp [ht, Place.readyOn, hc] at hv
    simpa [hvt] using hv

lemma Alert.done (h : Alert M demand s) (hdemand : Demand M inv demand) (hinv : inv s.shared)
    (ht : s.place t = .ready op) (henter : M.enter op s.shared = some (shared, r, c))
    {woken : Finset T} (hwakes : M.Wakes s c woken) :
    Alert M demand
      ⟨shared, Function.update (wakeAll woken s.place) t .outside, s.log ++ [(op, r)]⟩ := by
  rintro d ⟨u, hu⟩
  have hwaits : (s.place u).waitsOn M.awaits = some d := waitsOn_done hu
  have hbefore := h d ⟨u, hwaits⟩
  have hended := hdemand.ended hinv henter d
  let after : Moment T Op S R :=
    ⟨shared, Function.update (wakeAll woken s.place) t .outside, s.log ++ [(op, r)]⟩
  have hkept : (M.readyThreads s d).erase t ⊆ M.readyThreads after d := by
    intro v hv
    rw [Finset.mem_erase, mem_readyThreads] at hv
    rw [mem_readyThreads]
    exact readyOn_done hwakes hv.1 hv.2
  have herase : (M.readyThreads s d).card ≤
      ((M.readyThreads s d).erase t).card + if M.awaits op = d then 1 else 0 := by
    split_ifs with hd
    · have hle := Finset.pred_card_le_card_erase (s := M.readyThreads s d) (a := t)
      omega
    · have hmem : t ∉ M.readyThreads s d := by simp [mem_readyThreads, ht, Place.readyOn, hd]
      simp [Finset.erase_eq_of_notMem hmem]
  have hwoken : ((M.readyThreads s d).erase t).card + (if c = d then 1 else 0) ≤
      (M.readyThreads after d).card := by
    split_ifs with hd
    · subst hd
      obtain ⟨w, hw⟩ := hwakes.nonempty ⟨u, hwaits⟩
      have hwt : w ≠ t := by
        rintro rfl
        simpa [ht, Place.waitsOn] using hwakes.waits w hw
      have hnot : w ∉ (M.readyThreads s c).erase t := by
        simp [mem_readyThreads, readyOn_eq_none (hwakes.waits w hw)]
      rw [← Finset.card_insert_of_notMem hnot]
      apply Finset.card_le_card
      apply Finset.insert_subset _ hkept
      rw [mem_readyThreads]
      exact readyOn_done_woken hwakes hwt hw
    · exact Finset.card_le_card hkept
  change demand d shared ≤ (M.readyThreads after d).card
  omega

lemma Reachable.alert (h : M.Reachable shared s) (hdemand : Demand M inv demand) (hinv : inv shared) :
    inv s.shared ∧ Alert M demand s := by
  induction h with
  | init =>
    refine ⟨hinv, ?_⟩
    rintro c ⟨t, ht⟩
    cases ht
  | step _ hs ih =>
    obtain ⟨hi, ha⟩ := ih
    cases hs with
    | call t op h => exact ⟨hi, ha.ready (by simp [h, Place.readyOn])⟩
    | wait h hblocked => exact ⟨hi, ha.wait h (hdemand.blocked hi hblocked)⟩
    | done h henter hwakes => exact ⟨hdemand.keeps hi henter, ha.done hdemand hi h henter hwakes⟩
    | spurious h => exact ⟨hi, ha.ready (by simp [h, Place.readyOn])⟩

lemma Reachable.quiet (h : M.Reachable shared s) (hdemand : Demand M inv demand) (hinv : inv shared)
    (hquiet : ∀ t op, s.place t ≠ .ready op) (hwaits : s.place t = .waiting op) :
    demand (M.awaits op) s.shared = 0 := by
  have hle := (h.alert hdemand hinv).2 (M.awaits op) ⟨t, by simp [hwaits, Place.waitsOn]⟩
  have hnone : M.readyThreads s (M.awaits op) = ∅ := by
    rw [Finset.eq_empty_iff_forall_notMem]
    intro u hu
    rw [mem_readyThreads] at hu
    cases hp : s.place u with
    | ready op' => exact hquiet u op' hp
    | outside => simp [hp, Place.readyOn] at hu
    | waiting op' => simp [hp, Place.readyOn] at hu
  simpa [hnone] using hle

end Wakeups

end Monitor

end SystemsLab.Threads
