import SystemsLab.Shell.Commands

namespace SystemsLab.Shell

open Effects Tables CLib

def finalState : EStateM.Result Stop State ℤ → State
  | .ok _ s => s
  | .error _ s => s

def addCalls (inputs : List Input) : List AddCall :=
  (finalState (runShell inputs initialState)).addCalls

theorem add_job_to_table_inside_iff (inputs : List Input) (c : AddCall) (hc : c ∈ addCalls inputs) :
    (1 ≤ c.index ∧ c.index ≤ maxJobs) ↔ c.before.table maxJobs = none := by
  have hends := ends_runShell inputs
  rw [addCalls] at hc
  cases hrun : runShell inputs initialState with
  | ok status s =>
    rw [hrun] at hc
    exact (hends.ok hrun).logged c hc
  | error e s =>
    rw [hrun] at hc
    exact hends.error hrun c hc

theorem add_job_to_table_inside_iff_stopAndEnd : ∃ c ∈ addCalls stopAndEnd, c.index = 2 ∧
    ((1 ≤ c.index ∧ c.index ≤ maxJobs) ↔ c.before.table maxJobs = none) :=
  ⟨_, List.mem_cons_self, rfl, add_job_to_table_inside_iff stopAndEnd _ List.mem_cons_self⟩

section Staggered

variable {s : State} {n : ℕ} {E : Stop → State → Prop}

def start (pid : ℤ) : Input :=
  .pipeline ⟨true, [⟨[ascii "sleep"], .other⟩]⟩ (startsWith pid [])

def finish (pid : ℤ) : Input := .sigchld [[⟨pid, .exited, 0⟩]]

def staggered : ℕ → List Input
  | 0 => [start 1]
  | n + 1 => staggered n ++ [start (n + 2), finish (n + 1)]

def sleeping (id : ℕ) (pid : ℤ) : Job :=
  ⟨.background, id, pid, [⟨pid, ⟨0, .unset, 0⟩, true⟩]⟩

lemma ends_start (status pid : ℤ) :
    Ends (runInput status (start pid))
      (fun _ s' => s.jobs.highestJobId < maxJobs ∧
        s' = (s.alloc.put s.next (sleeping 0 pid)).list s.next (sleeping 0 pid))
      (fun _ s' => ¬ s.jobs.highestJobId < maxJobs ∧
        s'.addCalls = ⟨s.jobs.highestJobId + 1, s.jobs⟩ :: s.addCalls) s := by
  have hne : ¬ CommandType.other = .builtin := nofun
  have hjob : { newJob with state := .background }.startProcess (pid + (0 : ℕ)) = sleeping 0 pid := by
    simp [newJob, Job.startProcess, sleeping, defaultProcess]
  have hput : (s.alloc.put s.next { newJob with state := .background }).put s.next (sleeping 0 pid) =
      s.alloc.put s.next (sleeping 0 pid) := by
    simp only [State.put, Function.update_idem]
  simp only [start, runInput, interpret, if_neg hne, runPipeline, ends_bind, ends_defaultJob, if_true]
  rw [ends_modifyJob State.alloc_self]
  simp only [startFrom, startsWith, ends_bind, ne_eq, not_true, false_and, if_false]
  rw [ends_modifyJob State.put_self, hjob, hput]
  simp only [ends_pure, if_true, handleJob, ends_bind]
  rw [ends_deref State.put_self]
  simp only [sleeping, ends_bind]
  exact ends_addJobToTable State.put_self

def ended (id : ℕ) (pid : ℤ) : Job := ⟨.done, id, pid, [⟨pid, ⟨pid, .exited, 0⟩, false⟩]⟩

lemma getProcess_sleeping (id : ℕ) (pid : ℤ) :
    getProcess (sleeping id pid).processes pid = some ⟨pid, ⟨0, .unset, 0⟩, true⟩ := by
  simp [getProcess, sleeping]

lemma takeEvent_sleeping (id : ℕ) (pid : ℤ) :
    (sleeping id pid).takeEvent ⟨pid, .exited, 0⟩ =
      (some ⟨pid, ⟨pid, .exited, 0⟩, false⟩, ended id pid) := by
  rw [Job.takeEvent, getProcess_sleeping]
  simp [sleeping, recordInfo, Job.setJobState, Job.hasCompleted, Job.allFinished, ended,
    hasProcesesTerminated, SiCode.isTermination]

lemma ends_finish {r : Ref} {k : ℕ} {pid status : ℤ} (h : Tidy s none) (hk : 1 ≤ k)
    (hmax : k < maxJobs) (hbelow : ∀ j, j < k → s.jobs.table j = none)
    (hslot : s.jobs.table k = some r) (hr : s.heap r = some (sleeping k pid)) :
    Ends (runInput status (finish pid))
      (fun _ s' => s' = ((s.put r (ended k pid)).unlist k).free r) E s := by
  have hput : (s.put r (ended k pid)).put r (ended k pid) = s.put r (ended k pid) := by
    simp only [State.put, Function.update_idem]
  have hset : (ended k pid).setJobState (some ⟨pid, ⟨pid, .exited, 0⟩, false⟩) = ended k pid := rfl
  have hcompleted : (ended k pid).hasCompleted = (true, ended k pid) := rfl
  have hchange : Changes (sleeping k pid) (ended k pid) := ⟨rfl, Or.inr (Or.inr (Or.inr rfl))⟩
  have ht := h.put_changes (Or.inl rfl) hr hchange
  have hfind : Ends (findJobByPid pid) (fun o s' => o = some r ∧ s' = s) E s :=
    ends_findJobFrom_found (Nat.zero_le k) (by omega) hmax.le hbelow hslot hr
      (by rw [getProcess_sleeping]; rfl)
  rw [finish, runInput, ends_bind]
  change Ends (do reapAll [⟨pid, .exited, 0⟩]; pure ()) _ E s
  simp only [reapAll, waitForAnyProcess, ends_bind]
  refine hfind.imp ?_
  rintro o s₁ ⟨rfl, rfl⟩
  simp only [ends_bind, ends_deref hr, takeEvent_sleeping, ends_store, ends_pure, Option.map_some]
  rw [ends_deref State.put_self, ends_modifyJob State.put_self, hset, hput, removeIfCompleted,
    if_pos (decide_eq_true (show (ended k pid).id > 0 from hk)), ends_bind,
    ends_hasCompleted State.put_self, hcompleted, if_pos rfl, hput, ends_bind]
  refine Ends.imp (ends_removeJobFromTable State.put_self hk hmax.le
    (ht.listed_unlist hk hslot (Or.inr rfl)) ht.counts.highest_le) ?_
  rintro - s₂ rfl
  refine (ends_freeJob (s := (s₁.put r (ended k pid)).unlist k) State.put_self).mpr ?_
  exact rfl

structure Alone (s : State) (n : ℕ) : Prop where
  tidy : Tidy s none
  next : s.next = n + 1
  table : s.jobs.table = Function.update (fun _ => none) (n + 1) (some n)
  job : s.heap n = some (sleeping (n + 1) (n + 1))
  highest : s.jobs.highestJobId = n + 1
  few : ∀ c ∈ s.addCalls, (occupied maxJobs c.before.table).card ≤ 1

lemma Alone.card_le (h : Alone s n) : (occupied maxJobs s.jobs.table).card ≤ 1 := by
  refine (Finset.card_le_card (t := {n + 1}) fun i hi => ?_).trans (Finset.card_singleton _).le
  rw [mem_occupied, h.table] at hi
  by_contra hne
  rw [Function.update_of_ne (fun he => hne (Finset.mem_singleton.mpr he))] at hi
  cases hi.2

lemma ends_staggered_zero : Ends (runShell (staggered 0)) (fun _ s => Alone s 0) (fun _ _ => False)
    initialState := by
  have hstart := (ends_start (s := initialState) 0 1).and (ends_runInput initialState_tidy 0 (start 1))
  simp only [staggered, runShell, List.foldlM_cons, List.foldlM_nil, ends_bind, ends_pure]
  refine hstart.mono ?_ ?_
  · rintro b s ⟨⟨-, rfl⟩, htidy, -⟩
    refine ⟨htidy, rfl, rfl, State.list_self, rfl, fun c hc => ?_⟩
    rw [List.mem_singleton.mp hc]
    simp [occupied, initialState]
  · rintro e s ⟨⟨hlt, -⟩, -⟩
    exact hlt (by decide)

lemma ends_stagger (h : Alone s n) (hn : n + 2 ≤ maxJobs) (status : ℤ) :
    Ends ([start (n + 2), finish (n + 1)].foldlM runInput status) (fun _ s' => Alone s' (n + 1))
      (fun _ _ => False) s := by
  simp only [List.foldlM_cons, List.foldlM_nil, ends_bind, ends_pure]
  refine ((ends_start (s := s) status (n + 2)).and (ends_runInput h.tidy status _)).mono ?_ ?_
  · rintro b s₁ ⟨⟨-, he⟩, h₁, -⟩
    rw [h.next] at he
    have hne : n ≠ n + 1 := by omega
    have htable : s₁.jobs.table =
        Function.update (Function.update (fun _ => none) (n + 1) (some n)) (n + 2) (some (n + 1)) := by
      rw [he, State.list_table, State.put_jobs, State.alloc_jobs, h.table, h.highest]
    have hhigh : s₁.jobs.highestJobId = n + 2 := by
      rw [he]
      exact congrArg (· + 1) h.highest
    have hjob : s₁.heap n = some (sleeping (n + 1) (n + 1)) := by
      rw [he, State.list_of_ne hne, State.put_of_ne hne, State.alloc_of_ne (by rwa [h.next]), h.job]
    have hlast : s₁.heap (n + 1) = some (sleeping (n + 2) (n + 2)) := by
      rw [he, State.list_self, State.put_jobs, State.alloc_jobs, h.highest]
      rfl
    have hslot : s₁.jobs.table (n + 1) = some n := by
      rw [htable, Function.update_of_ne (by omega), Function.update_self]
    have hbelow : ∀ j, j < n + 1 → s₁.jobs.table j = none := by
      intro j hj
      rw [htable, Function.update_of_ne (by omega), Function.update_of_ne (by omega)]
    refine ((ends_finish (E := fun _ _ => False) h₁ (Nat.le_add_left 1 n) (by omega) hbelow hslot hjob).and
      (ends_runInput h₁ b (finish (n + 1)))).mono ?_ ?_
    · rintro b' s₂ ⟨rfl, h₂, -⟩
      have htable₂ : (s₁.unlist (n + 1)).jobs.table =
          Function.update (fun _ => none) (n + 2) (some (n + 1)) := by
        rw [State.unlist_table, htable, Function.update_comm (by omega), Function.update_idem]
        congr 1
        exact Function.update_eq_self (n + 1) _
      refine ⟨h₂, ?_, htable₂, ?_, ?_, ?_⟩
      · rw [he]
        exact congrArg (· + 1) h.next
      · rw [State.free_of_ne hne.symm, State.unlist_heap, State.put_of_ne hne.symm, hlast]
        push_cast
        ring_nf
      · change lastUsed (s₁.unlist (n + 1)).jobs.table s₁.jobs.highestJobId = n + 1 + 1
        rw [htable₂, hhigh, lastUsed, Function.update_self, if_pos (by rfl)]
      · intro c hc
        have hc : c ∈ s₁.addCalls := hc
        rw [he] at hc
        rcases List.mem_cons.mp hc with rfl | hc
        · exact h.card_le
        · exact h.few c hc
    · rintro e s₂ ⟨hf, -⟩
      exact hf
  · rintro e s₁ ⟨⟨hlt, -⟩, -⟩
    rw [h.highest] at hlt
    omega

lemma ends_staggered (hn : n + 1 ≤ maxJobs) :
    Ends (runShell (staggered n)) (fun _ s => Alone s n) (fun _ _ => False) initialState := by
  induction n with
  | zero => exact ends_staggered_zero
  | succ n ih =>
    rw [staggered, runShell, ends_foldlM_append]
    exact (ih (by omega)).imp fun b s h => ends_stagger h hn b

def overrun (n : ℕ) : List Input := staggered n ++ [start (n + 2)]

lemma overrun_addCalls (hn : n + 1 = maxJobs) :
    (∀ c ∈ addCalls (overrun n), (occupied maxJobs c.before.table).card ≤ 1) ∧
      ∃ c ∈ addCalls (overrun n), c.index = maxJobs + 1 := by
  have hends : Ends (runShell (overrun n)) (fun _ _ => False) (fun _ s =>
      (∀ c ∈ s.addCalls, (occupied maxJobs c.before.table).card ≤ 1) ∧
        ∃ c ∈ s.addCalls, c.index = maxJobs + 1) initialState := by
    rw [overrun, runShell, ends_foldlM_append]
    refine (ends_staggered hn.le).mono ?_ (fun _ _ hf => hf.elim)
    intro b s h
    have hhigh : s.jobs.highestJobId = maxJobs := h.highest.trans hn
    simp only [List.foldlM_cons, List.foldlM_nil, ends_bind, ends_pure]
    refine (ends_start (s := s) b (n + 2)).mono ?_ ?_
    · rintro - s₁ ⟨hlt, -⟩
      omega
    · rintro e s₁ ⟨-, he⟩
      rw [he]
      refine ⟨fun c hc => ?_, _, List.mem_cons_self, congrArg (· + 1) hhigh⟩
      rcases List.mem_cons.mp hc with rfl | hc
      · exact h.card_le
      · exact h.few c hc
  rw [addCalls]
  cases hrun : runShell (overrun n) initialState with
  | ok status s => exact (hends.ok hrun).elim
  | error e s => exact hends.error hrun

end Staggered

theorem add_job_to_table_overruns :
    ¬ ∀ inputs : List Input,
      (∀ c ∈ addCalls inputs, (occupied maxJobs c.before.table).card < maxJobs) →
        ∀ c ∈ addCalls inputs, 1 ≤ c.index ∧ c.index ≤ maxJobs := by
  intro h
  obtain ⟨n, hn⟩ : ∃ n, n + 1 = maxJobs := ⟨8191, rfl⟩
  obtain ⟨hfew, c, hc, hindex⟩ := overrun_addCalls hn
  have hle := h (overrun n) (fun c hc => lt_of_le_of_lt (hfew c hc) (by decide)) c hc
  omega

end SystemsLab.Shell
