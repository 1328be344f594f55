import SystemsLab.Shell.Memory
import SystemsLab.Shell.Interpret
import SystemsLab.Effects.Moves

namespace SystemsLab.Shell

open Effects

def Job.Remembered (job job' : Job) : Prop :=
  ∀ pid p, getProcess job.processes pid = some p →
    ∃ p', getProcess job'.processes pid = some p' ∧ p'.info = p.info

structure Remembers (s s' : State) : Prop where
  next_le : s.next ≤ s'.next
  fresh : (∀ r, s.next ≤ r → s.heap r = none) → ∀ r, s'.next ≤ r → s'.heap r = none
  heap : ∀ r job', r < s.next → s'.heap r = some job' →
    ∃ job, s.heap r = some job ∧ job.Remembered job'

variable {s s' s'' : State} {r : Ref} {job job' job'' : Job}

lemma Job.Remembered.of_eq (h : job'.processes = job.processes) : job.Remembered job' := by
  intro pid p hp
  exact ⟨p, by rwa [h], rfl⟩

lemma Job.Remembered.trans (h : job.Remembered job') (h' : job'.Remembered job'') :
    job.Remembered job'' := by
  intro pid p hp
  obtain ⟨p', hp', he⟩ := h pid p hp
  obtain ⟨p'', hp'', he'⟩ := h' pid p' hp'
  exact ⟨p'', hp'', he'.trans he⟩

lemma Job.remembered_setJobState (job : Job) (process : Option Process) :
    job.Remembered (job.setJobState process) := by
  obtain ⟨state, he, -⟩ := job.setJobState_spec process
  rw [he]
  exact .of_eq rfl

lemma Job.remembered_hasCompleted (job : Job) : job.Remembered job.hasCompleted.2 := by
  rw [Job.hasCompleted]
  split_ifs <;> exact .of_eq rfl

lemma Job.remembered_setJobProcessState (job : Job) (state : ProcessState) :
    job.Remembered (job.setJobProcessState state) := by
  intro pid p hp
  refine ⟨{ p with isRunning := state = .running }, ?_, rfl⟩
  rw [getProcess] at hp
  rw [getProcess, Job.setJobProcessState, List.find?_map]
  exact congrArg (Option.map _) hp

lemma Job.remembered_startProcess (job : Job) (pid : ℤ) : job.Remembered (job.startProcess pid) := by
  intro q p hp
  refine ⟨p, ?_, rfl⟩
  rw [getProcess] at hp
  rw [getProcess, Job.startProcess, List.find?_append, hp]
  rfl

lemma getProcess_cons (p : Process) (ps : List Process) (pid : ℤ) :
    getProcess (p :: ps) pid = if p.pid = pid then some p else getProcess ps pid := by
  rw [getProcess, List.find?_cons]
  by_cases hp : p.pid = pid
  · rw [if_pos hp, beq_iff_eq.mpr hp]
  · rw [if_neg hp, beq_eq_false_iff_ne.mpr hp]
    rfl

lemma getProcess_recordInfo (info : SigInfo) (ps : List Process) (pid : ℤ) :
    getProcess (recordInfo info ps) pid =
      if pid = info.siPid then
        (getProcess ps pid).map fun p => { p with isRunning := false, info := info }
      else getProcess ps pid := by
  induction ps with
  | nil => split_ifs <;> rfl
  | cons p ps ih =>
    rw [recordInfo, getProcess_cons]
    by_cases hp : p.pid = info.siPid
    · rw [if_pos hp, getProcess_cons]
      by_cases hpid : pid = info.siPid
      · rw [if_pos (hp.trans hpid.symm), if_pos hpid, if_pos (hp.trans hpid.symm)]
        rfl
      · have hne : p.pid ≠ pid := fun he => hpid (he.symm.trans hp)
        rw [if_neg hne, if_neg hpid, if_neg hne]
    · rw [if_neg hp, getProcess_cons, ih]
      by_cases hpp : p.pid = pid
      · rw [if_pos hpp, if_pos hpp, if_neg (hpp ▸ hp)]
      · rw [if_neg hpp, if_neg hpp]

lemma takeEvent_processes {info : SigInfo} {p : Process}
    (hp : getProcess job.processes info.siPid = some p) :
    (job.takeEvent info).2.processes = recordInfo info job.processes := by
  rw [Job.takeEvent, hp]
  obtain ⟨state, he, -⟩ := ({ job with processes := recordInfo info job.processes } :
    Job).setJobState_spec (some { p with isRunning := false, info := info })
  exact congrArg Job.processes he

namespace Remembers

lemma refl (s : State) : Remembers s s :=
  ⟨le_rfl, fun h => h, fun _ job' _ hr => ⟨job', hr, .of_eq rfl⟩⟩

lemma trans (h : Remembers s s') (h' : Remembers s' s'') : Remembers s s'' where
  next_le := h.next_le.trans h'.next_le
  fresh hs := h'.fresh (h.fresh hs)
  heap r job'' hr hj := by
    obtain ⟨job', hj', hkept'⟩ := h'.heap r job'' (hr.trans_le h.next_le) hj
    obtain ⟨job, hj, hkept⟩ := h.heap r job' hr hj'
    exact ⟨job, hj, hkept.trans hkept'⟩

lemma of_heap (hheap : s'.heap = s.heap) (hnext : s'.next = s.next) : Remembers s s' where
  next_le := hnext.ge
  fresh hs := by rwa [hheap, hnext]
  heap r job' _ hr := ⟨job', by rwa [← hheap], .of_eq rfl⟩

lemma put (hr : s.heap r = some job) (h : job.Remembered job') : Remembers s (s.put r job') where
  next_le := le_rfl
  fresh hs q hq := by
    have hne : q ≠ r := by
      rintro rfl
      rw [hs q hq] at hr
      cases hr
    rw [State.put_of_ne hne]
    exact hs q hq
  heap q job'' _ hj := by
    by_cases hqr : q = r
    · subst hqr
      rw [State.put_self, Option.some.injEq] at hj
      exact ⟨job, hr, hj ▸ h⟩
    · rw [State.put_of_ne hqr] at hj
      exact ⟨job'', hj, .of_eq rfl⟩

lemma free (s : State) (r : Ref) : Remembers s (s.free r) where
  next_le := le_rfl
  fresh hs q hq := by
    by_cases hqr : q = r
    · rw [hqr, State.free_self]
    · rw [State.free_of_ne hqr]
      exact hs q hq
  heap q job' _ hj := by
    by_cases hqr : q = r
    · rw [hqr, State.free_self] at hj
      cases hj
    · rw [State.free_of_ne hqr] at hj
      exact ⟨job', hj, .of_eq rfl⟩

lemma alloc (s : State) : Remembers s s.alloc where
  next_le := Nat.le_succ _
  fresh hs q hq := by
    have hne : q ≠ s.next := Nat.ne_of_gt hq
    rw [State.alloc_of_ne hne]
    exact hs q (Nat.le_of_succ_le hq)
  heap q job' hq hj := by
    rw [State.alloc_of_ne (Nat.ne_of_lt hq)] at hj
    exact ⟨job', hj, .of_eq rfl⟩

end Remembers

lemma steady_remembers : Steady Remembers := ⟨.refl, .trans⟩

lemma moves_setSlot (i : ℕ) (v : Option Ref) : Moves Remembers (setSlot i v) :=
  Moves.ite (moves_modify fun _ => .of_heap rfl rfl) (steady_remembers.reads reads_throw)

lemma moves_setNumJobs (n : ℕ) : Moves Remembers (setNumJobs n) :=
  moves_modify fun _ => .of_heap rfl rfl

lemma moves_setHighestJobId (n : ℕ) : Moves Remembers (setHighestJobId n) :=
  moves_modify fun _ => .of_heap rfl rfl

lemma moves_deref {α : Type} {f : Job → ShellM α}
    (h : ∀ s job, s.heap r = some job →
      Ends (f job) (fun _ s' => Remembers s s') (fun _ s' => Remembers s s') s) :
    Moves Remembers (deref r >>= f) := by
  intro s
  cases hr : s.heap r with
  | none =>
    simp only [deref, ends_bind, ends_get, hr, ends_fault]
    exact .refl s
  | some job =>
    rw [ends_bind, ends_deref hr]
    exact h s job hr

lemma moves_modifyJob {f : Job → Job} (h : ∀ job : Job, job.Remembered (f job)) :
    Moves Remembers (modifyJob r f) := by
  rw [modifyJob]
  apply moves_deref
  intro s job hr
  rw [ends_store]
  exact .put hr (h job)

lemma moves_hasCompleted (o : Option Ref) : Moves Remembers (hasCompleted o) := by
  cases o with
  | none => exact steady_remembers.reads reads_pure
  | some r =>
    apply moves_deref
    intro s job hr
    rw [ends_bind, ends_store, ends_pure]
    exact .put hr job.remembered_hasCompleted

lemma moves_freeJob (o : Option Ref) : Moves Remembers (freeJob o) := by
  cases o with
  | none => exact steady_remembers.reads reads_pure
  | some r =>
    apply moves_deref
    intro s job hr
    rw [ends_modify]
    exact .free s r

lemma moves_lowerHighestJobId (h : ℕ) : Moves Remembers (lowerHighestJobId h) := by
  induction h with
  | zero => exact steady_remembers.reads reads_pure
  | succ h ih =>
    have hlower := steady_remembers.bind (moves_setHighestJobId h) fun _ => ih
    apply steady_remembers.bind (steady_remembers.reads (reads_slot (h + 1)))
    intro o
    cases o with
    | none => exact hlower
    | some r =>
      apply steady_remembers.bind (steady_remembers.reads (reads_deref r))
      intro job
      exact Moves.ite (steady_remembers.reads reads_pure) hlower

lemma moves_updateHighestJobId : Moves Remembers updateHighestJobId :=
  steady_remembers.bind (steady_remembers.reads reads_get) fun _ => moves_lowerHighestJobId _

lemma moves_giveUpSlot {c : Prop} [Decidable c] {f : Unit → ShellM Unit}
    (hf : ∀ u, Moves Remembers (f u)) :
    Moves Remembers (if c then do
        setNumJobs ((← get).jobs.numJobs - 1)
        f ()
      else f ()) := by
  apply Moves.ite
  · apply steady_remembers.bind (steady_remembers.reads reads_get)
    intro s
    exact steady_remembers.bind (moves_setNumJobs _) hf
  · exact hf ()

lemma moves_removeJobFromTable (r : Ref) : Moves Remembers (removeJobFromTable r) := by
  apply steady_remembers.bind (steady_remembers.reads (reads_deref r))
  intro job
  apply steady_remembers.bind (moves_setSlot job.id none)
  intro _
  exact moves_giveUpSlot fun _ => moves_updateHighestJobId

lemma moves_removeIfCompleted (tableJob : Bool) (r : Ref) :
    Moves Remembers (removeIfCompleted tableJob r) := by
  apply Moves.ite
  · apply steady_remembers.bind (moves_hasCompleted (some r))
    intro completed
    apply Moves.ite
    · apply steady_remembers.bind (moves_removeJobFromTable r)
      exact fun _ => moves_freeJob (some r)
    · exact steady_remembers.reads reads_pure
  · exact steady_remembers.reads reads_pure

lemma moves_setForegroundJob (r : Ref) : Moves Remembers (setForegroundJob r) := by
  have hfront : Moves Remembers (do
      modifyJob r fun job => { job with state := .foreground, id := 0 }
      setSlot 0 (some r)
      modifyJob r (·.setJobProcessState .running)) := by
    apply steady_remembers.bind
    · exact moves_modifyJob fun _ => .of_eq rfl
    · intro _
      apply steady_remembers.bind (moves_setSlot 0 (some r))
      exact fun _ => moves_modifyJob fun job => job.remembered_setJobProcessState .running
  apply steady_remembers.bind (steady_remembers.reads (reads_deref r))
  intro job
  apply steady_remembers.bind (moves_setSlot job.id none)
  intro _
  apply Moves.ite
  · apply steady_remembers.bind (steady_remembers.reads reads_get)
    intro s
    apply steady_remembers.bind (moves_setNumJobs _)
    intro _
    exact steady_remembers.bind moves_updateHighestJobId fun _ => hfront
  · exact hfront

end SystemsLab.Shell
