import SystemsLab.Shell.Searches
import SystemsLab.Shell.Numbering

namespace SystemsLab.Shell

open Effects Tables

variable {s : State} {n id k : ℕ} {r : Ref} {job : Job}

def StoppedJob (s : State) (id : ℕ) : Prop :=
  ∃ i r job, s.jobs.table i = some r ∧ s.heap r = some job ∧ job.state = .stopped ∧ job.id = id

structure HighestStopped (s : State) (id : ℕ) : Prop where
  stopped : id = 0 ∨ StoppedJob s id
  highest : ∀ k, StoppedJob s k → k ≤ id

def Covered (s : State) (n : ℕ) : Prop :=
  ∀ i, 1 ≤ i → i ≤ n → s.jobs.table i = none → ∃ k, i < k ∧ k ≤ n ∧ StoppedJob s k

lemma Tidy.stopped_slot (h : Tidy s none) (hk : StoppedJob s k) :
    ∃ r job, s.jobs.table k = some r ∧ s.heap r = some job ∧ job.state = .stopped := by
  obtain ⟨i, r, job, hi, hr, hst, rfl⟩ := hk
  exact ⟨r, job, h.seated hi hr, hr, hst⟩

lemma Tidy.stopped_le (h : Tidy s none) (hk : StoppedJob s k) : k ≤ s.jobs.highestJobId := by
  obtain ⟨r, job, hslot, -⟩ := h.stopped_slot hk
  by_cases h0 : k = 0
  · rw [h0]
    exact Nat.zero_le _
  · exact h.counts.le_highest k (h.occupied_of_slot (Nat.one_le_iff_ne_zero.mpr h0) hslot)

lemma Covered.of_stopped (hslot : s.jobs.table n ≠ none) (hjob : StoppedJob s n) : Covered s n := by
  intro i hi hle hempty
  have hne : i ≠ n := by
    rintro rfl
    exact hslot hempty
  exact ⟨n, by omega, le_rfl, hjob⟩

lemma le_of_not_stopped (hnot : ¬ StoppedJob s (n + 1)) (hk : k ≤ n + 1) (hjob : StoppedJob s k) :
    k ≤ n := by
  have hne : k ≠ n + 1 := by
    rintro rfl
    exact hnot hjob
  omega

lemma covered_succ_iff (hslot : s.jobs.table (n + 1) ≠ none) (hnot : ¬ StoppedJob s (n + 1)) :
    Covered s (n + 1) ↔ Covered s n := by
  constructor
  · intro hcovered i hi hle hempty
    obtain ⟨k, hik, hkn, hjob⟩ := hcovered i hi (by omega) hempty
    exact ⟨k, hik, le_of_not_stopped hnot hkn hjob, hjob⟩
  · intro hcovered i hi hle hempty
    have hne : i ≠ n + 1 := by
      rintro rfl
      exact hslot hempty
    obtain ⟨k, hik, hkn, hjob⟩ := hcovered i hi (by omega) hempty
    exact ⟨k, hik, by omega, hjob⟩

lemma Tidy.not_stopped_slot (h : Tidy s none) (hslot : s.jobs.table n = some r)
    (hr : s.heap r = some job) (hst : job.state ≠ .stopped) : ¬ StoppedJob s n := by
  intro hk
  obtain ⟨r', job', hslot', hr', hst'⟩ := h.stopped_slot hk
  rw [hslot, Option.some.injEq] at hslot'
  subst hslot'
  rw [hr, Option.some.injEq] at hr'
  exact hst (hr' ▸ hst')

lemma ends_highestStoppedFrom (h : Tidy s none) (hn : n ≤ maxJobs) :
    Ends (highestStoppedFrom n)
      (fun id s' => s' = s ∧ (id = 0 ∨ StoppedJob s id) ∧ (∀ k, k ≤ n → StoppedJob s k → k ≤ id) ∧
        Covered s n)
      (fun _ _ => ¬ Covered s n) s := by
  induction n with
  | zero =>
    refine ⟨rfl, Or.inl rfl, fun k hk _ => hk, ?_⟩
    intro i hi hle
    omega
  | succ n ih =>
    rw [highestStoppedFrom, ends_bind, ends_slot hn]
    cases hslot : s.jobs.table (n + 1) with
    | none =>
      intro hcovered
      obtain ⟨k, hlt, hle, -⟩ := hcovered (n + 1) (Nat.le_add_left 1 n) le_rfl hslot
      omega
    | some r =>
      obtain ⟨job, hr, hid, -⟩ := h.listed (n + 1) r (Nat.le_add_left 1 n) hslot
      have hsome : s.jobs.table (n + 1) ≠ none := by simp [hslot]
      rw [ends_bind, ends_deref hr, ends_ite]
      refine ⟨fun hst => ?_, fun hst => ?_⟩
      · have hjob : StoppedJob s (n + 1) := ⟨n + 1, r, job, hslot, hr, hst, hid⟩
        exact ⟨rfl, Or.inr hjob, fun k hk _ => hk, Covered.of_stopped hsome hjob⟩
      · have hnot := h.not_stopped_slot hslot hr hst
        rw [covered_succ_iff hsome hnot]
        apply (ih (Nat.le_of_succ_le hn)).imp
        rintro id s' ⟨hs, hid, hmax, hcovered⟩
        refine ⟨hs, hid, fun k hk hjob => ?_, hcovered⟩
        exact hmax k (le_of_not_stopped hnot hk hjob) hjob

lemma ends_getHighestStoppedJobId (h : Tidy s none) :
    Ends getHighestStoppedJobId
      (fun id s' => s' = s ∧ HighestStopped s id ∧ Covered s s.jobs.highestJobId)
      (fun _ _ => ¬ Covered s s.jobs.highestJobId) s := by
  refine (ends_highestStoppedFrom h h.counts.highest_le).imp ?_
  rintro id s' ⟨hs, hid, hmax, hcovered⟩
  exact ⟨hs, ⟨hid, fun k hk => hmax k (h.stopped_le hk) hk⟩, hcovered⟩

theorem get_highest_stopped_job_id_iff (inputs : List Input) (s : State) (h : Reached inputs s) :
    (∃ id, getHighestStoppedJobId s = .ok id s ∧ HighestStopped s id) ↔
      ∀ i, 1 ≤ i → i < s.jobs.highestJobId → s.jobs.table i = none →
        ∃ k, i < k ∧ StoppedJob s k := by
  have hends := ends_getHighestStoppedJobId h.tidy
  constructor
  · rintro ⟨id, hrun, -⟩ i hi hlt hempty
    obtain ⟨k, hik, -, hk⟩ := (hends.ok hrun).2.2 i hi hlt.le hempty
    exact ⟨k, hik, hk⟩
  · intro hholes
    have hcovered : Covered s s.jobs.highestJobId := by
      intro i hi hle hempty
      have hne : i ≠ s.jobs.highestJobId := by
        rintro rfl
        rcases h.tidy.counts.highest_mem with h0 | hmem
        · omega
        · rw [mem_occupied, hempty] at hmem
          cases hmem.2
      obtain ⟨k, hik, hk⟩ := hholes i hi (by omega) hempty
      exact ⟨k, hik, h.tidy.stopped_le hk, hk⟩
    have hok := hends.mono (fun _ _ hq => hq) (fun _ _ hn => hn hcovered)
    obtain ⟨id, s', hrun, rfl, hhighest, -⟩ := hok.exists_ok
    exact ⟨id, hrun, hhighest⟩

theorem get_highest_stopped_job_id_stopAndEnd :
    ∃ s, Reached stopAndEnd s ∧ s.jobs.highestJobId = 2 ∧
      ((∃ id, getHighestStoppedJobId s = .ok id s ∧ HighestStopped s id) ↔
        ∀ i, 1 ≤ i → i < s.jobs.highestJobId → s.jobs.table i = none →
          ∃ k, i < k ∧ StoppedJob s k) :=
  ⟨_, Or.inl ⟨_, rfl⟩, rfl, get_highest_stopped_job_id_iff stopAndEnd _ (Or.inl ⟨_, rfl⟩)⟩

/-- Two jobs run in the background and the first one has ended. -/
theorem get_highest_stopped_job_id_derefs_empty :
    ¬ ∀ (inputs : List Input) (s : State), Reached inputs s →
      ∃ id, getHighestStoppedJobId s = .ok id s ∧ HighestStopped s id := by
  intro h
  obtain ⟨status, s, hrun, halone⟩ := (ends_staggered (n := 1) (by decide)).exists_ok
  obtain ⟨id, hok, -⟩ := h (staggered 1) s (Or.inl ⟨status, hrun⟩)
  obtain ⟨k, hk, -, hjob⟩ := ((ends_getHighestStoppedJobId halone.tidy).ok hok).2.2 1 le_rfl
    (by rw [halone.highest]; decide) (by rw [halone.table]; rfl)
  obtain ⟨r, job, hslot, hr, hst⟩ := halone.tidy.stopped_slot hjob
  rw [halone.table] at hslot
  by_cases hk2 : k = 1 + 1
  · rw [hk2, Function.update_self, Option.some.injEq] at hslot
    rw [← hslot, halone.job, Option.some.injEq] at hr
    rw [← hr] at hst
    cases hst
  · rw [Function.update_of_ne hk2] at hslot
    cases hslot

end SystemsLab.Shell
