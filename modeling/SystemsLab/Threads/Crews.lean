import SystemsLab.Threads.Monitors
import Mathlib.Algebra.BigOperators.Group.Finset.Basic
import Mathlib.Algebra.Order.BigOperators.Group.Finset
import Mathlib.Algebra.BigOperators.Ring.Finset
import Mathlib.Data.Fintype.BigOperators

namespace SystemsLab.Threads.Monitor

/-- `left t` are the operations that the thread `t` has not called yet. -/
structure Crew (T Op S R : Type*) where
  moment : Moment T Op S R
  left : T → List Op

variable {T Op S R C : Type*} [DecidableEq T] (M : Monitor Op S R C)

namespace Crew

inductive Step : Bool → Crew T Op S R → Crew T Op S R → Prop
  | call {s} {t : T} {op : Op} {ops : List Op} (h : s.moment.place t = .outside)
    (hleft : s.left t = op :: ops) :
    Step false s ⟨{ s.moment with place := Function.update s.moment.place t (.ready op) },
      Function.update s.left t ops⟩
  | wait {s} {t : T} {op : Op} (h : s.moment.place t = .ready op)
    (hblocked : M.enter op s.moment.shared = none) :
    Step false s
      { s with moment := { s.moment with place := Function.update s.moment.place t (.waiting op) } }
  | done {s} {t : T} {op : Op} {shared : S} {r : R} {c : C} {woken : Finset T}
    (h : s.moment.place t = .ready op) (henter : M.enter op s.moment.shared = some (shared, r, c))
    (hwakes : M.Wakes s.moment c woken) :
    Step false s { s with
      moment := ⟨shared, Function.update (wakeAll woken s.moment.place) t .outside,
        s.moment.log ++ [(op, r)]⟩ }
  | spurious {s} {t : T} {op : Op} (h : s.moment.place t = .waiting op) :
    Step true s
      { s with moment := { s.moment with place := Function.update s.moment.place t (.ready op) } }

inductive Run : ℕ → ℕ → Crew T Op S R → Crew T Op S R → Prop
  | nil (s) : Run 0 0 s s
  | snoc {k n s s' s''} {b : Bool} (h : Run k n s s') (hs : Step M b s' s'') :
    Run (k + b.toNat) (n + 1) s s''

def Ended (s : Crew T Op S R) : Prop := ∀ t, s.moment.place t = .outside ∧ s.left t = []

variable {M} {s s' : Crew T Op S R} {b : Bool} {t u : T} {op : Op} {k n : ℕ}

lemma Step.toStep (h : Step M b s s') : M.Step s.moment s'.moment := by
  cases h with
  | call h hleft => exact .call _ _ h
  | wait h hblocked => exact .wait h hblocked
  | done h henter hwakes => exact .done h henter hwakes
  | spurious h => exact .spurious h

lemma Run.reachable {shared : S} (h : Run M k n s s') (hs : s.moment = initial T Op R shared) :
    M.Reachable shared s'.moment := by
  induction h with
  | nil =>
    rw [hs]
    exact .init
  | snoc _ hstep ih => exact (ih hs).step hstep.toStep

lemma Run.induction {P : Crew T Op S R → Prop} (h : Run M k n s s') (hs : P s)
    (hstep : ∀ a a' b, M.Reachable s.moment.shared a.moment → P a → Step M b a a' → P a')
    (hinit : s.moment = initial T Op R s.moment.shared) : P s' := by
  induction h with
  | nil => exact hs
  | snoc hrun hlast ih => exact hstep _ _ _ (hrun.reachable hinit) (ih hs hstep hinit) hlast

section Todo

def todo (s : Crew T Op S R) (t : T) : List Op :=
  match s.moment.place t with
  | .outside => s.left t
  | .ready op => op :: s.left t
  | .waiting op => op :: s.left t

omit [DecidableEq T] in
lemma todo_eq_nil : s.todo t = [] ↔ s.moment.place t = .outside ∧ s.left t = [] := by
  rw [todo]
  cases s.moment.place t with
  | outside => exact ⟨fun h => ⟨rfl, h⟩, And.right⟩
  | ready op => exact ⟨nofun, fun h => nomatch h.1⟩
  | waiting op => exact ⟨nofun, fun h => nomatch h.1⟩

lemma Step.todo_eq (h : Step M b s s') :
    (s'.moment.shared = s.moment.shared ∧ s'.moment.log = s.moment.log ∧ ∀ u, s'.todo u = s.todo u) ∨
      ∃ t op r c, s.todo t = op :: s'.todo t ∧ (∀ u, u ≠ t → s'.todo u = s.todo u) ∧
        s'.moment.log = s.moment.log ++ [(op, r)] ∧
        M.enter op s.moment.shared = some (s'.moment.shared, r, c) := by
  cases h with
  | @call _ t op ops h hleft =>
    refine Or.inl ⟨rfl, rfl, fun u => ?_⟩
    by_cases hu : u = t
    · subst hu
      simp only [todo, Function.update_self, h, hleft]
    · simp only [todo, Function.update_of_ne hu]
  | @wait _ t op h hblocked =>
    refine Or.inl ⟨rfl, rfl, fun u => ?_⟩
    by_cases hu : u = t
    · subst hu
      simp only [todo, Function.update_self, h]
    · simp only [todo, Function.update_of_ne hu]
  | @done _ t op shared r c woken h henter hwakes =>
    refine Or.inr ⟨t, op, r, c, ?_, fun u hu => ?_, rfl, henter⟩
    · simp only [todo, Function.update_self, h]
    · simp only [todo, Function.update_of_ne hu, wakeAll]
      by_cases hw : u ∈ woken
      · simp only [if_pos hw]
        have hwaits := hwakes.waits u hw
        cases hp : s.moment.place u with
        | waiting op => rfl
        | outside => rw [hp] at hwaits; cases hwaits
        | ready op => rw [hp] at hwaits; cases hwaits
      · simp only [if_neg hw]
  | @spurious _ t op h =>
    refine Or.inl ⟨rfl, rfl, fun u => ?_⟩
    by_cases hu : u = t
    · subst hu
      simp only [todo, Function.update_self, h]
    · simp only [todo, Function.update_of_ne hu]

end Todo

section Stuck

omit [DecidableEq T] in
lemma exists_wakes (m : Moment T Op S R) (c : C) : ∃ woken : Finset T, M.Wakes m c woken := by
  by_cases h : ∃ t, (m.place t).waitsOn M.awaits = some c
  · obtain ⟨t, ht⟩ := h
    refine ⟨{t}, fun u hu => ?_, fun _ => Finset.singleton_nonempty t⟩
    rwa [Finset.mem_singleton.mp hu]
  · exact ⟨∅, fun u hu => absurd hu (Finset.notMem_empty u), fun h' => absurd h' h⟩

lemma quiet_of_stuck (h : ∀ s', ¬ Step M false s s') :
    (∀ t op, s.moment.place t ≠ .ready op) ∧ ∀ t, s.moment.place t = .outside → s.left t = [] := by
  constructor
  · intro t op ht
    cases henter : M.enter op s.moment.shared with
    | none => exact h _ (.wait ht henter)
    | some entered =>
      obtain ⟨shared, r, c⟩ := entered
      obtain ⟨woken, hwakes⟩ := exists_wakes (M := M) s.moment c
      exact h _ (.done ht henter hwakes)
  · intro t ht
    cases hleft : s.left t with
    | nil => rfl
    | cons op ops => exact absurd (.call ht hleft) (h _)

lemma Ended.stuck (h : Ended s) (s' : Crew T Op S R) : ¬ Step M b s s' := by
  intro hs
  cases hs with
  | @call _ t op ops ht hleft =>
    rw [(h t).2] at hleft
    cases hleft
  | @wait _ t op ht =>
    rw [(h t).1] at ht
    cases ht
  | @done _ t op shared r c woken ht =>
    rw [(h t).1] at ht
    cases ht
  | @spurious _ t op ht =>
    rw [(h t).1] at ht
    cases ht

end Stuck

section Length

variable [Fintype T]

def placeWeight (n : ℕ) : Place Op → ℕ
  | .outside => 0
  | .waiting _ => n
  | .ready _ => n + 1

def threadWeight (s : Crew T Op S R) (t : T) : ℕ :=
  (s.left t).length * (Fintype.card T + 2) + placeWeight (Fintype.card T) (s.moment.place t)

def weight (s : Crew T Op S R) : ℕ := ∑ t, threadWeight s t

lemma placeWeight_woken (p : Place Op) : placeWeight n p.woken ≤ placeWeight n p + 1 := by
  cases p with
  | waiting op => exact le_rfl
  | outside => exact Nat.le_succ _
  | ready op => exact Nat.le_succ _

omit [DecidableEq T] in
lemma weight_of_thread {i j : ℕ} (hothers : ∀ u, u ≠ t → threadWeight s' u = threadWeight s u)
    (hthread : threadWeight s' t + i = threadWeight s t + j) : weight s' + i = weight s + j := by
  classical
  have hsum : ∑ u ∈ Finset.univ.erase t, threadWeight s' u =
      ∑ u ∈ Finset.univ.erase t, threadWeight s u :=
    Finset.sum_congr rfl fun u hu => hothers u (Finset.ne_of_mem_erase hu)
  have hs' := Finset.add_sum_erase Finset.univ (threadWeight s') (Finset.mem_univ t)
  have hs := Finset.add_sum_erase Finset.univ (threadWeight s) (Finset.mem_univ t)
  rw [weight, weight]
  omega

/-- An operation that ends pays for those that it wakes. -/
lemma weight_of_done (hothers : ∀ u, u ≠ t → threadWeight s' u ≤ threadWeight s u + 1)
    (hthread : threadWeight s' t + (Fintype.card T + 1) = threadWeight s t) :
    weight s' + 1 ≤ weight s := by
  have hsum : ∑ u ∈ Finset.univ.erase t, threadWeight s' u ≤
      ∑ u ∈ Finset.univ.erase t, (threadWeight s u + 1) :=
    Finset.sum_le_sum fun u hu => hothers u (Finset.ne_of_mem_erase hu)
  rw [Finset.sum_add_distrib, Finset.sum_const, Finset.card_erase_of_mem (Finset.mem_univ t),
    Finset.card_univ, Nat.nsmul_eq_mul] at hsum
  have hs' := Finset.add_sum_erase Finset.univ (threadWeight s') (Finset.mem_univ t)
  have hs := Finset.add_sum_erase Finset.univ (threadWeight s) (Finset.mem_univ t)
  rw [weight, weight]
  omega

lemma Step.weight_le (h : Step M b s s') : weight s' + 1 ≤ weight s + 2 * b.toNat := by
  cases h with
  | @call _ t op ops h hleft =>
    apply le_of_eq
    apply weight_of_thread (t := t)
    · intro u hu
      simp only [threadWeight, Function.update_of_ne hu]
    · simp only [threadWeight, Function.update_self, h, hleft, placeWeight, List.length_cons,
        Bool.toNat_false]
      rw [Nat.succ_mul]
      omega
  | @wait _ t op h hblocked =>
    apply le_of_eq
    apply weight_of_thread (t := t)
    · intro u hu
      simp only [threadWeight, Function.update_of_ne hu]
    · simp only [threadWeight, Function.update_self, h, placeWeight, Bool.toNat_false]
      omega
  | @done _ t op shared r c woken h henter hwakes =>
    apply weight_of_done (t := t)
    · intro u hu
      simp only [threadWeight, Function.update_of_ne hu, wakeAll]
      split_ifs
      · rw [Nat.add_assoc]
        exact Nat.add_le_add_left (placeWeight_woken _) _
      · exact Nat.le_succ _
    · simp only [threadWeight, Function.update_self, h, placeWeight]
      omega
  | @spurious _ t op h =>
    apply le_of_eq
    apply weight_of_thread (t := t)
    · intro u hu
      simp only [threadWeight, Function.update_of_ne hu]
    · simp only [threadWeight, Function.update_self, h, placeWeight, Bool.toNat_true]
      omega

lemma Run.length_le (h : Run M k n s s') : weight s' + n ≤ weight s + 2 * k := by
  induction h with
  | nil => exact le_rfl
  | @snoc k n a a' a'' b _ hs ih =>
    have hstep := hs.weight_le
    omega

omit [DecidableEq T] in
lemma weight_start (s : Crew T Op S R) (h : ∀ t, s.moment.place t = .outside) :
    weight s = (∑ t, (s.left t).length) * (Fintype.card T + 2) := by
  rw [weight, Finset.sum_mul]
  apply Finset.sum_congr rfl
  intro t _
  rw [threadWeight, h t]
  rfl

end Length

end Crew

end SystemsLab.Threads.Monitor
