import SystemsLab.Shell.Memory

namespace SystemsLab.Shell

open Effects Tables

def AddCall.Sound (c : AddCall) : Prop :=
  (1 ≤ c.index ∧ c.index ≤ maxJobs) ↔ c.before.table maxJobs = none

def State.Logged (s : State) : Prop := ∀ c ∈ s.addCalls, c.Sound

def Allowed (finishing : Option Ref) (r : Ref) (state : JobState) : Prop :=
  state = .background ∨ state = .stopped ∨ finishing = some r ∧ state = .done

structure Table (s : State) (finishing : Option Ref) : Prop where
  listed : ∀ i r, 1 ≤ i → s.jobs.table i = some r →
    ∃ job, s.heap r = some job ∧ job.id = i ∧ Allowed finishing r job.state
  counts : Counts maxJobs s.jobs.table s.jobs.numJobs s.jobs.highestJobId
  inside : ∀ i, maxJobs < i → s.jobs.table i = none
  unused : ∀ r, s.next ≤ r → s.heap r = none ∧ ∀ i, s.jobs.table i ≠ some r
  logged : s.Logged

structure Tidy (s : State) (finishing : Option Ref) : Prop extends Table s finishing where
  front : ∀ r job, s.jobs.table 0 = some r → s.heap r = some job → job.id = 0

variable {s s' : State} {r : Ref} {job job' : Job} {i : ℕ} {finishing finishing' : Option Ref}

namespace Table

lemma lt_next (h : Table s finishing) (hr : s.heap r = some job) : r < s.next := by
  by_contra hle
  rw [(h.unused r (Nat.le_of_not_lt hle)).1] at hr
  cases hr

lemma slot_le (h : Table s finishing) (hi : s.jobs.table i = some r) : i ≤ maxJobs := by
  by_contra hlt
  rw [h.inside i (Nat.lt_of_not_le hlt)] at hi
  cases hi

lemma not_listed (h : Table s finishing) (hr : s.heap r = some job) (hid : job.id = 0) :
    ∀ i, 1 ≤ i → s.jobs.table i ≠ some r := by
  intro i hi hslot
  obtain ⟨job', hr', hid', -⟩ := h.listed i r hi hslot
  rw [hr] at hr'
  cases hr'
  omega

lemma occupied_of_slot (h : Table s finishing) (hi : 1 ≤ i) (hslot : s.jobs.table i = some r) :
    i ∈ occupied maxJobs s.jobs.table :=
  mem_occupied.mpr ⟨⟨hi, h.slot_le hslot⟩, by rw [hslot]; rfl⟩

lemma listed_unlist (h : Table s finishing) (hi : 1 ≤ i) (hslot : s.jobs.table i = some r)
    (hfin : finishing = none ∨ finishing = some r) : Listed (s.unlist i) := by
  intro k q hk hq
  simp only [State.unlist] at hq ⊢
  by_cases hki : k = i
  · rw [hki, Function.update_self] at hq
    cases hq
  · rw [Function.update_of_ne hki] at hq
    obtain ⟨job, hjob, hid, hstate⟩ := h.listed k q hk hq
    refine ⟨job, hjob, ?_⟩
    rcases hstate with hst | hst | ⟨hf, -⟩
    · exact Or.inl hst
    · exact Or.inr hst
    · obtain ⟨job', hjob', hid', -⟩ := h.listed i r hi hslot
      rcases hfin with hn | hs
      · rw [hn] at hf
        cases hf
      · rw [hs, Option.some.injEq] at hf
        rw [← hf, hjob'] at hjob
        cases hjob
        exact absurd (hid.symm.trans hid') hki

lemma unlist (h : Table s finishing) (hi : 1 ≤ i) (hslot : s.jobs.table i = some r)
    (hfin : finishing = none ∨ finishing = some r) : Table (s.unlist i) none where
  listed k q hk hq := by
    obtain ⟨job, hjob, hstate⟩ := h.listed_unlist hi hslot hfin k q hk hq
    have hq' : s.jobs.table k = some q := by
      simp only [State.unlist] at hq
      by_cases hki : k = i
      · rw [hki, Function.update_self] at hq
        cases hq
      · rwa [Function.update_of_ne hki] at hq
    obtain ⟨job', hjob', hid, -⟩ := h.listed k q hk hq'
    rw [show (s.unlist i).heap q = s.heap q from rfl, hjob'] at hjob
    cases hjob
    exact ⟨job, hjob', hid, hstate.imp_right Or.inl⟩
  counts := h.counts.remove (h.occupied_of_slot hi hslot)
  inside k hk := by
    simp only [State.unlist]
    by_cases hki : k = i
    · rw [hki, Function.update_self]
    · rw [Function.update_of_ne hki]
      exact h.inside k hk
  unused q hq := by
    refine ⟨(h.unused q hq).1, fun k => ?_⟩
    simp only [State.unlist]
    by_cases hki : k = i
    · rw [hki, Function.update_self]
      exact nofun
    · rw [Function.update_of_ne hki]
      exact (h.unused q hq).2 k
  logged := h.logged

lemma put (h : Table s finishing) (hr : s.heap r = some job)
    (hjob : ∀ i, 1 ≤ i → s.jobs.table i = some r → job'.id = i ∧ Allowed finishing' r job'.state)
    (hfin : ∀ q, q ≠ r → finishing = some q → finishing' = some q) :
    Table (s.put r job') finishing' where
  listed i q hi hq := by
    by_cases hqr : q = r
    · subst hqr
      exact ⟨job', Function.update_self _ _ _, hjob i hi hq⟩
    · obtain ⟨job, hq', hid, hstate⟩ := h.listed i q hi hq
      refine ⟨job, (Function.update_of_ne hqr _ _).trans hq', hid, ?_⟩
      exact hstate.imp_right (Or.imp_right (And.imp_left (hfin q hqr)))
  counts := h.counts
  inside := h.inside
  unused q hq := by
    have hne : q ≠ r := ne_of_gt (lt_of_lt_of_le (h.lt_next hr) hq)
    exact ⟨(Function.update_of_ne hne _ _).trans (h.unused q hq).1, (h.unused q hq).2⟩
  logged := h.logged

lemma free (h : Table s finishing) (hslot : ∀ i, 1 ≤ i → s.jobs.table i ≠ some r) :
    Table (s.free r) finishing where
  listed i q hi hq := by
    obtain ⟨job, hq', hid, hstate⟩ := h.listed i q hi hq
    have hne : q ≠ r := by
      rintro rfl
      exact hslot i hi hq
    exact ⟨job, (Function.update_of_ne hne _ _).trans hq', hid, hstate⟩
  counts := h.counts
  inside := h.inside
  unused q hq := by
    refine ⟨?_, (h.unused q hq).2⟩
    by_cases hqr : q = r
    · rw [hqr]
      exact Function.update_self _ _ _
    · exact (Function.update_of_ne hqr _ _).trans (h.unused q hq).1
  logged := h.logged

lemma setFront (h : Table s finishing) {v : Option Ref}
    (hv : ∀ r, v = some r → s.heap r ≠ none) : Table (s.setFront v) finishing where
  listed i q hi hq := by
    simp only [State.setFront] at hq ⊢
    rw [Function.update_of_ne (Nat.ne_of_gt hi)] at hq
    exact h.listed i q hi hq
  counts := h.counts.update_zero v
  inside i hi := by
    simp only [State.setFront]
    rw [Function.update_of_ne (Nat.ne_of_gt (lt_of_le_of_lt (Nat.zero_le _) hi))]
    exact h.inside i hi
  unused q hq := by
    refine ⟨(h.unused q hq).1, fun i => ?_⟩
    simp only [State.setFront]
    by_cases hi : i = 0
    · rw [hi, Function.update_self]
      intro hvq
      exact hv q hvq (h.unused q hq).1
    · rw [Function.update_of_ne hi]
      exact (h.unused q hq).2 i
  logged := h.logged

lemma alloc (h : Table s finishing) : Table s.alloc finishing where
  listed i q hi hq := by
    obtain ⟨job, hq', hid, hstate⟩ := h.listed i q hi hq
    have hne : q ≠ s.next := ne_of_lt (h.lt_next hq')
    exact ⟨job, (Function.update_of_ne hne _ _).trans hq', hid, hstate⟩
  counts := h.counts
  inside := h.inside
  unused q hq := by
    have hlt : s.next < q := hq
    have hu := h.unused q hlt.le
    exact ⟨(Function.update_of_ne (ne_of_gt hlt) _ _).trans hu.1, hu.2⟩
  logged := h.logged

lemma sound_call (h : Table s finishing) : AddCall.Sound ⟨s.jobs.highestJobId + 1, s.jobs⟩ := by
  refine Iff.trans ?_ (h.counts.highest_lt_iff (by decide))
  exact and_iff_right (Nat.le_add_left 1 _)

lemma list (h : Table s none) (hr : s.heap r = some job) (hid : job.id = 0)
    (hstate : job.state = .background ∨ job.state = .stopped)
    (hlt : s.jobs.highestJobId < maxJobs) : Table (s.list r job) none where
  listed i q hi hq := by
    simp only [State.list] at hq ⊢
    by_cases hih : i = s.jobs.highestJobId + 1
    · rw [hih, Function.update_self, Option.some.injEq] at hq
      subst hq
      exact ⟨_, Function.update_self _ _ _, hih.symm, hstate.imp_right Or.inl⟩
    · rw [Function.update_of_ne hih] at hq
      obtain ⟨job', hq', hid', hstate'⟩ := h.listed i q hi hq
      have hne : q ≠ r := by
        rintro rfl
        exact h.not_listed hr hid i hi hq
      exact ⟨job', (Function.update_of_ne hne _ _).trans hq', hid', hstate'⟩
  counts := h.counts.add hlt
  inside i hi := by
    simp only [State.list]
    rw [Function.update_of_ne (by omega)]
    exact h.inside i hi
  unused q hq := by
    simp only [State.list] at hq ⊢
    have hne : q ≠ r := ne_of_gt (lt_of_lt_of_le (h.lt_next hr) hq)
    refine ⟨(Function.update_of_ne hne _ _).trans (h.unused q hq).1, fun i => ?_⟩
    by_cases hih : i = s.jobs.highestJobId + 1
    · rw [hih, Function.update_self]
      exact fun he => hne (Option.some.inj he).symm
    · rw [Function.update_of_ne hih]
      exact (h.unused q hq).2 i
  logged c hc := by
    rcases List.mem_cons.mp hc with rfl | hc
    · exact h.sound_call
    · exact h.logged c hc

lemma settle (h : Table s (some r)) (hr : s.heap r = some job)
    (hstate : job.state ≠ .done ∨ job.id = 0) : Table s none where
  listed i q hi hq := by
    obtain ⟨job', hq', hid, hst⟩ := h.listed i q hi hq
    refine ⟨job', hq', hid, ?_⟩
    rcases hst with hst | hst | ⟨hf, hd⟩
    · exact Or.inl hst
    · exact Or.inr (Or.inl hst)
    · cases hf
      rw [hr] at hq'
      cases hq'
      rcases hstate with hnd | h0
      · exact absurd hd hnd
      · omega
  counts := h.counts
  inside := h.inside
  unused := h.unused
  logged := h.logged

end Table

lemma initialState_tidy : Tidy initialState none where
  listed _ _ _ hq := nomatch hq
  counts := Counts.empty maxJobs
  inside _ _ := rfl
  unused _ _ := ⟨rfl, fun _ => nofun⟩
  logged _ hc := nomatch hc
  front _ _ hq := nomatch hq

end SystemsLab.Shell
