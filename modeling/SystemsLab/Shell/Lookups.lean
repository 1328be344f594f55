import SystemsLab.Shell.Searches
import SystemsLab.Shell.Numbering

namespace SystemsLab.Shell

open Effects Tables

variable {s : State} {pid : ℤ} {i k n : ℕ} {q r : Ref} {job : Job} {p : Process} {info : SigInfo}

def ListedAt (s : State) (pid : ℤ) (i : ℕ) : Prop :=
  ∃ r job, s.jobs.table i = some r ∧ s.heap r = some job ∧ job.Lists pid

def FrontAlive (s : State) : Prop := ∀ q, s.jobs.table 0 = some q → s.heap q ≠ none

structure ProperTable (s : State) : Prop where
  ids : ∀ i r job, s.jobs.table i = some r → s.heap r = some job → job.id ≤ maxJobs
  pids : ∀ i k r q job job' p p', s.jobs.table i = some r → s.jobs.table k = some q →
    s.heap r = some job → s.heap q = some job' → p ∈ job.processes → p' ∈ job'.processes →
    p.pid = p'.pid → r = q

lemma Job.lists_iff : job.Lists pid ↔ ∃ p ∈ job.processes, p.pid = pid := by
  rw [Job.Lists, getProcess, List.find?_isSome]
  exact exists_congr fun p => and_congr_right fun _ => beq_iff_eq

lemma Tidy.alive (h : Tidy s none) (hf : FrontAlive s) (hslot : s.jobs.table i = some r) :
    ∃ job, s.heap r = some job := by
  by_cases hi : i = 0
  · rw [hi] at hslot
    exact Option.ne_none_iff_exists'.mp (hf r hslot)
  · obtain ⟨job, hr, -⟩ := h.listed i r (Nat.one_le_iff_ne_zero.mpr hi) hslot
    exact ⟨job, hr⟩

lemma Tidy.slot_unique (h : Tidy s none) (hr : s.heap r = some job) (hi : s.jobs.table i = some r)
    (hk : s.jobs.table k = some r) : i = k := by
  have hid : ∀ j, s.jobs.table j = some r → j = job.id := by
    intro j hj
    by_cases hj0 : j = 0
    · rw [hj0] at hj ⊢
      exact (h.front r job hj hr).symm
    · obtain ⟨job', hr', hid', -⟩ := h.listed j r (Nat.one_le_iff_ne_zero.mpr hj0) hj
      rw [hr, Option.some.injEq] at hr'
      rw [hr', hid']
  rw [hid i hi, hid k hk]

inductive Finds (s : State) (pid : ℤ) (i n : ℕ) : Option Ref → Prop
  | nothing (h : ∀ j, i ≤ j → j < n → ¬ ListedAt s pid j) : Finds s pid i n none
  | first (k : ℕ) (r : Ref) (job : Job) (hk : i ≤ k ∧ k < n) (hslot : s.jobs.table k = some r)
      (hr : s.heap r = some job) (hl : job.Lists pid)
      (h : ∀ j, i ≤ j → j < k → ¬ ListedAt s pid j) : Finds s pid i n (some r)

lemma Finds.skip {o : Option Ref} (h : Finds s pid (i + 1) n o) (hi : ¬ ListedAt s pid i) :
    Finds s pid i n o := by
  have hstep : ∀ {j}, i ≤ j → j = i ∨ i + 1 ≤ j := by omega
  cases h with
  | nothing h =>
    refine .nothing fun j hij hj => ?_
    rcases hstep hij with rfl | hij
    · exact hi
    · exact h j hij hj
  | first k r job hk hslot hr hl h =>
    refine .first k r job ⟨by omega, hk.2⟩ hslot hr hl fun j hij hj => ?_
    rcases hstep hij with rfl | hij
    · exact hi
    · exact h j hij hj

lemma ends_findJobFrom_finds (halive : ∀ j r, s.jobs.table j = some r → ∃ job, s.heap r = some job)
    (hle : i + n ≤ maxJobs + 1) :
    Ends (findJobFrom pid n i) (fun o s' => s' = s ∧ Finds s pid i (i + n) o) (fun _ _ => False)
      s := by
  induction n generalizing i with
  | zero => exact ⟨rfl, .nothing fun j hij hj => by omega⟩
  | succ n ih =>
    have hn : i + (n + 1) = i + 1 + n := by omega
    rw [findJobFrom, ends_bind, ends_slot (by omega), hn]
    have hrest : ¬ ListedAt s pid i → Ends (findJobFrom pid n (i + 1))
        (fun o s' => s' = s ∧ Finds s pid i (i + 1 + n) o) (fun _ _ => False) s :=
      fun hi => (ih (by omega)).imp fun o s' hf => ⟨hf.1, hf.2.skip hi⟩
    cases hslot : s.jobs.table i with
    | none =>
      apply hrest
      rintro ⟨r, job, hr, -⟩
      rw [hslot] at hr
      cases hr
    | some r =>
      obtain ⟨job, hr⟩ := halive i r hslot
      rw [ends_bind, ends_deref hr, ends_ite]
      refine ⟨fun hp => ?_, fun hp => hrest ?_⟩
      · exact ⟨rfl, .first i r job ⟨le_rfl, by omega⟩ hslot hr hp fun j hij hj => by omega⟩
      · rintro ⟨r', job', hslot', hr', hl⟩
        rw [hslot, Option.some.injEq] at hslot'
        subst hslot'
        rw [hr, Option.some.injEq] at hr'
        exact hp (hr' ▸ hl)

lemma Tidy.findJobByPid (h : Tidy s none) (hf : FrontAlive s) (pid : ℤ) :
    ∃ o, findJobByPid pid s = .ok o s ∧ Finds s pid 0 maxJobs o := by
  have halive : ∀ j r, s.jobs.table j = some r → ∃ job, s.heap r = some job := fun _ _ => h.alive hf
  have hends : Ends (Shell.findJobByPid pid) (fun o s' => s' = s ∧ Finds s pid 0 (0 + maxJobs) o)
      (fun _ _ => False) s :=
    ends_findJobFrom_finds halive (by omega)
  rw [Nat.zero_add] at hends
  obtain ⟨o, s', hrun, rfl, hfinds⟩ := hends.exists_ok
  exact ⟨o, hrun, hfinds⟩

lemma ends_findJobFrom_freed (hslot : s.jobs.table 0 = some r) (hr : s.heap r = none) :
    Ends (findJobFrom pid (n + 1) 0) (fun _ _ => False)
      (fun e s' => e = .fault .freedPointer ∧ s' = s) s := by
  rw [findJobFrom, ends_bind, ends_slot (Nat.zero_le _), hslot]
  simp only [ends_bind, deref, ends_get, hr]
  exact ⟨rfl, rfl⟩

lemma findJobByPid_freed (hslot : s.jobs.table 0 = some r) (hr : s.heap r = none) (pid : ℤ) :
    findJobByPid pid s = .error (.fault .freedPointer) s := by
  have hends : Ends (findJobByPid pid) (fun _ _ => False)
      (fun e s' => e = .fault .freedPointer ∧ s' = s) s :=
    ends_findJobFrom_freed (n := 8191) hslot hr
  cases hrun : findJobByPid pid s with
  | ok o s' => exact (hends.ok hrun).elim
  | error e s' =>
    obtain ⟨rfl, rfl⟩ := hends.error hrun
    rfl

lemma frontAlive_of_found {o : Option Ref} (h : findJobByPid pid s = .ok o s) : FrontAlive s := by
  intro q hq hfreed
  rw [findJobByPid_freed hq hfreed] at h
  cases h

lemma waitForAnyProcess_none (h : findJobByPid info.siPid s = .ok none s) :
    waitForAnyProcess (some info) s = .ok none s := by
  simp only [waitForAnyProcess]
  change EStateM.bind _ _ s = _
  rw [EStateM.bind, h]
  rfl

lemma waitForAnyProcess_some (h : findJobByPid info.siPid s = .ok (some r) s)
    (hr : s.heap r = some job) (hl : job.Lists info.siPid) :
    ∃ p, waitForAnyProcess (some info) s = .ok (some (r, p)) (s.put r (job.takeEvent info).2) := by
  obtain ⟨p, hp⟩ := Option.isSome_iff_exists.mp hl
  refine ⟨{ p with isRunning := false, info := info }, ?_⟩
  have hends : Ends (waitForAnyProcess (some info))
      (fun o s' => o = some (r, { p with isRunning := false, info := info }) ∧
        s' = s.put r (job.takeEvent info).2) (fun _ _ => False) s := by
    rw [waitForAnyProcess, ends_bind]
    apply ends_of_ok h
    rw [ends_bind, ends_deref hr, ends_bind, ends_store, ends_pure]
    refine ⟨?_, rfl⟩
    rw [Job.takeEvent, hp]
    rfl
  obtain ⟨o, s', hrun, rfl, rfl⟩ := hends.exists_ok
  exact hrun

structure Found (s : State) (r : Ref) (job : Job) (p : Process) : Prop where
  byPid : findJobByPid p.pid s = .ok (some r) s
  event : ∀ info, info.siPid = p.pid → ∃ p' s', waitForAnyProcess (some info) s = .ok (some (r, p')) s'
  byId : job.id ≠ 0 → findJobById job.id s = .ok (some r) s

theorem find_job_finds_iff (inputs : List Input) (s : State) (h : Reached inputs s)
    (hs : ProperTable s) (i : ℕ) (r : Ref) (job : Job) (p : Process)
    (hi : s.jobs.table i = some r) (hr : s.heap r = some job) (hp : p ∈ job.processes) :
    Found s r job p ↔ i < maxJobs ∧ ∀ q, s.jobs.table 0 = some q → s.heap q ≠ none := by
  have ht := h.tidy
  have hl : job.Lists p.pid := Job.lists_iff.mpr ⟨p, hp, rfl⟩
  constructor
  · intro hfound
    have hfront := frontAlive_of_found hfound.byPid
    obtain ⟨o, hrun, hfinds⟩ := ht.findJobByPid hfront p.pid
    rw [hfound.byPid] at hrun
    cases hrun
    cases hfinds with
    | first k r job' hk hslot hr' _ _ =>
      rw [ht.slot_unique hr hi hslot]
      exact ⟨hk.2, hfront⟩
  · rintro ⟨hlt, hfront⟩
    obtain ⟨o, hrun, hfinds⟩ := ht.findJobByPid hfront p.pid
    have hpid : findJobByPid p.pid s = .ok (some r) s := by
      cases hfinds with
      | nothing hnone => exact absurd ⟨r, job, hi, hr, hl⟩ (hnone i (Nat.zero_le i) hlt)
      | first k q job' hk hslot hq hlq _ =>
        obtain ⟨p', hp', he⟩ := Job.lists_iff.mp hlq
        rw [hrun, hs.pids k i q r job' job p' p hslot hi hq hr hp' hp he]
    refine ⟨hpid, fun info hinfo => ?_, fun hid => ?_⟩
    · rw [← hinfo] at hpid hl
      obtain ⟨p', hwait⟩ := waitForAnyProcess_some hpid hr hl
      exact ⟨p', _, hwait⟩
    · have hle : job.id ≤ maxJobs := hs.ids i r job hi hr
      rw [findJobById, if_neg (by omega), slot, if_pos hle]
      exact congrArg (EStateM.Result.ok · s) (ht.seated hi hr)

lemma Alone.slot (h : Alone s n) (hi : s.jobs.table i = some r) : i = n + 1 ∧ r = n := by
  rw [h.table] at hi
  by_cases hin : i = n + 1
  · rw [hin, Function.update_self, Option.some.injEq] at hi
    exact ⟨hin, hi.symm⟩
  · rw [Function.update_of_ne hin] at hi
    cases hi

lemma Alone.table_last (h : Alone s n) : s.jobs.table (n + 1) = some n := by
  rw [h.table, Function.update_self]

lemma Alone.proper (h : Alone s n) : ProperTable s where
  ids i r job hi hr := by
    rw [(h.slot hi).2, h.job, Option.some.injEq] at hr
    rw [← hr]
    exact h.tidy.slot_le h.table_last
  pids i k r q _ _ _ _ hi hk _ _ _ _ _ := (h.slot hi).2.trans (h.slot hk).2.symm

def sleeper (n : ℕ) : Process := ⟨n + 1, ⟨0, .unset, 0⟩, true⟩

theorem find_job_finds_sleeping :
    ∃ s, Reached (staggered 0) s ∧ (Found s 0 (sleeping 1 1) (sleeper 0) ↔
      1 < maxJobs ∧ ∀ q, s.jobs.table 0 = some q → s.heap q ≠ none) := by
  obtain ⟨status, s, hrun, h⟩ := ends_staggered_zero.exists_ok
  have hreached : Reached (staggered 0) s := Or.inl ⟨status, hrun⟩
  exact ⟨s, hreached, find_job_finds_iff (staggered 0) s hreached h.proper 1 0 (sleeping 1 1)
    (sleeper 0) h.table_last h.job List.mem_cons_self⟩

theorem find_job_misses_last :
    ¬ ∀ (inputs : List Input) (s : State), Reached inputs s → ProperTable s →
      ∀ (i : ℕ) (r : Ref) (job : Job) (p : Process), s.jobs.table i = some r →
        s.heap r = some job → p ∈ job.processes → Found s r job p := by
  intro hclaim
  obtain ⟨n, hn⟩ : ∃ n, n + 1 = maxJobs := ⟨8191, rfl⟩
  obtain ⟨status, s, hrun, h⟩ := (ends_staggered hn.le).exists_ok
  have hfound := hclaim (staggered n) s (Or.inl ⟨status, hrun⟩) h.proper (n + 1) n
    (sleeping (n + 1) (n + 1)) (sleeper n) h.table_last h.job List.mem_cons_self
  obtain ⟨o, hok, hfinds⟩ :=
    h.tidy.findJobByPid (frontAlive_of_found hfound.byPid) (sleeper n).pid
  rw [hfound.byPid] at hok
  cases hok
  cases hfinds with
  | first k r job hk hslot _ _ _ => exact absurd hk.2 (by rw [(h.slot hslot).1, hn]; exact lt_irrefl _)

end SystemsLab.Shell
