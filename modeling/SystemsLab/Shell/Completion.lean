import SystemsLab.Shell.Job
import Mathlib.Data.List.Induction
import Mathlib.Data.List.Nodup

namespace SystemsLab.Shell

/-- What happens to one job: a child event is reaped for it, or `fg` or `bg` moves it. -/
inductive JobOp
  | reaped (info : SigInfo)
  | fg
  | bg

def JobOp.IsMove : JobOp → Prop
  | .reaped _ => False
  | .fg | .bg => True

def JobOp.eventOf (pid : ℤ) : JobOp → Option SigInfo
  | .reaped info => if info.siPid = pid then some info else none
  | .fg | .bg => none

def JobOp.mayPrecede : JobOp → JobOp → Bool
  | .reaped info, .reaped info' => !info.siCode.isTermination || info'.siPid != info.siPid
  | _, _ => true

def events (pid : ℤ) (ops : List JobOp) : List SigInfo := ops.filterMap (JobOp.eventOf pid)

def Job.apply (job : Job) : JobOp → Job
  | .reaped info => (job.takeEvent info).2
  | .fg => job.moveToForeground
  | .bg => job.moveToBackground

def Job.run (job : Job) (ops : List JobOp) : Job := ops.foldl Job.apply job

structure Job.Fresh (job : Job) : Prop where
  nodup : (job.processes.map Process.pid).Nodup
  unset : ∀ p ∈ job.processes, p.info.siCode = .unset
  running : ∀ p ∈ job.processes, p.isRunning = true
  not_done : job.state ≠ .done

structure Job.Reaps (job : Job) (ops : List JobOp) : Prop where
  own : ∀ info, JobOp.reaped info ∈ ops → info.siPid ∈ job.processes.map Process.pid
  last : ops.Pairwise fun op op' => op.mayPrecede op' = true

def Terminated (pid : ℤ) (ops : List JobOp) : Prop :=
  ∃ info, (events pid ops).getLast? = some info ∧ info.siCode.isTermination = true

def MovedAfterTermination (ops : List JobOp) : Prop :=
  ∃ before info after, ops = before ++ .reaped info :: after ∧
    info.siCode.isTermination = true ∧ ∃ op ∈ after, op.IsMove

def runningAfter (pid : ℤ) (running : Bool) : List JobOp → Bool
  | [] => running
  | .reaped info :: ops => runningAfter pid (if info.siPid = pid then false else running) ops
  | .fg :: ops => runningAfter pid true ops
  | .bg :: ops => runningAfter pid true ops

lemma events_append (pid : ℤ) (ops ops' : List JobOp) :
    events pid (ops ++ ops') = events pid ops ++ events pid ops' :=
  List.filterMap_append

lemma runningAfter_append (pid : ℤ) (running : Bool) (ops ops' : List JobOp) :
    runningAfter pid running (ops ++ ops') = runningAfter pid (runningAfter pid running ops) ops' := by
  induction ops generalizing running with
  | nil => rfl
  | cons op ops ih => cases op <;> exact ih _

lemma events_append_move (pid : ℤ) (ops : List JobOp) {op : JobOp} (hm : op.IsMove) :
    events pid (ops ++ [op]) = events pid ops := by
  rw [events_append]
  cases op with
  | reaped info => exact hm.elim
  | fg => exact List.append_nil _
  | bg => exact List.append_nil _

lemma runningAfter_append_move (pid : ℤ) (running : Bool) (ops : List JobOp) {op : JobOp}
    (hm : op.IsMove) : runningAfter pid running (ops ++ [op]) = true := by
  rw [runningAfter_append]
  cases op with
  | reaped info => exact hm.elim
  | fg => rfl
  | bg => rfl

lemma mem_of_mem_events {pid : ℤ} {info : SigInfo} {ops : List JobOp} (h : info ∈ events pid ops) :
    JobOp.reaped info ∈ ops ∧ info.siPid = pid := by
  obtain ⟨op, hop, he⟩ := List.mem_filterMap.mp h
  cases op with
  | reaped i =>
    simp only [JobOp.eventOf, Option.ite_none_right_eq_some, Option.some.injEq] at he
    obtain ⟨hp, rfl⟩ := he
    exact ⟨hop, hp⟩
  | fg => cases he
  | bg => cases he

lemma runningAfter_of_moved {pid : ℤ} {ops : List JobOp} (hev : events pid ops = [])
    {running : Bool} (h : running = true ∨ ∃ op ∈ ops, op.IsMove) :
    runningAfter pid running ops = true := by
  induction ops generalizing running with
  | nil =>
    rcases h with h | ⟨op, hop, _⟩
    · exact h
    · cases hop
  | cons op ops ih =>
    rw [← List.singleton_append, events_append, List.append_eq_nil_iff] at hev
    cases op with
    | reaped info =>
      have hne : info.siPid ≠ pid := by
        intro he
        simp [events, JobOp.eventOf, he] at hev
      rw [runningAfter, if_neg hne]
      refine ih hev.2 ?_
      rcases h with h | ⟨op, hop, hm⟩
      · exact Or.inl h
      · rcases List.mem_cons.mp hop with rfl | hop
        · exact hm.elim
        · exact Or.inr ⟨op, hop, hm⟩
    | fg => exact ih hev.2 (Or.inl rfl)
    | bg => exact ih hev.2 (Or.inl rfl)

lemma MovedAfterTermination.append {ops : List JobOp} (h : MovedAfterTermination ops)
    (ops' : List JobOp) : MovedAfterTermination (ops ++ ops') := by
  obtain ⟨before, info, after, rfl, ht, op, hop, hm⟩ := h
  refine ⟨before, info, after ++ ops', ?_, ht, op, List.mem_append_left _ hop, hm⟩
  rw [List.append_assoc, List.cons_append]

lemma movedAfterTermination_of_mem {info : SigInfo} {ops : List JobOp} {op : JobOp}
    (h : JobOp.reaped info ∈ ops) (ht : info.siCode.isTermination = true) (hm : op.IsMove) :
    MovedAfterTermination (ops ++ [op]) := by
  obtain ⟨before, after, rfl⟩ := List.append_of_mem h
  refine ⟨before, info, after ++ [op], ?_, ht, op, ?_, hm⟩
  · rw [List.append_assoc, List.cons_append]
  · exact List.mem_append_right _ (List.mem_singleton_self op)

lemma Terminated.exists_mem {pid : ℤ} {ops : List JobOp} (h : Terminated pid ops) :
    ∃ info, JobOp.reaped info ∈ ops ∧ info.siPid = pid ∧ info.siCode.isTermination = true := by
  obtain ⟨info, hlast, ht⟩ := h
  obtain ⟨hmem, hpid⟩ := mem_of_mem_events (List.mem_of_getLast? hlast)
  exact ⟨info, hmem, hpid, ht⟩

lemma moved_of_running {pid : ℤ} {ops : List JobOp} (h : Terminated pid ops)
    (hr : runningAfter pid true ops = true) : MovedAfterTermination ops := by
  induction ops using List.reverseRecOn with
  | nil => exact nomatch h
  | append_singleton ops op ih =>
    obtain ⟨info, hlast, ht⟩ := h
    by_cases hm : op.IsMove
    · rw [events_append_move pid ops hm] at hlast
      have hmem := mem_of_mem_events (List.mem_of_getLast? hlast)
      exact movedAfterTermination_of_mem hmem.1 ht hm
    · cases op with
      | reaped i =>
        rw [runningAfter_append, runningAfter] at hr
        by_cases hi : i.siPid = pid
        · rw [if_pos hi] at hr
          cases hr
        · have hnil : events pid [JobOp.reaped i] = [] := by simp [events, JobOp.eventOf, hi]
          rw [events_append, hnil, List.append_nil] at hlast
          rw [if_neg hi] at hr
          exact (ih ⟨info, hlast, ht⟩ hr).append _
      | fg => exact absurd trivial hm
      | bg => exact absurd trivial hm

lemma Job.Reaps.events_after {job : Job} {before after : List JobOp} {info : SigInfo}
    (h : job.Reaps (before ++ .reaped info :: after)) (ht : info.siCode.isTermination = true) :
    events info.siPid after = [] := by
  have hlast := (List.pairwise_cons.mp (List.pairwise_append.mp h.last).2.1).1
  refine List.filterMap_eq_nil_iff.mpr fun op hop => ?_
  have hmay := hlast op hop
  cases op with
  | reaped i =>
    have hne : i.siPid ≠ info.siPid := by simpa [JobOp.mayPrecede, ht] using hmay
    rw [JobOp.eventOf, if_neg hne]
  | fg => rfl
  | bg => rfl

lemma Job.Reaps.of_append {job : Job} {ops ops' : List JobOp} (h : job.Reaps (ops ++ ops')) :
    job.Reaps ops where
  own info hi := h.own info (List.mem_append_left _ hi)
  last := (List.pairwise_append.mp h.last).1

lemma Job.Reaps.not_terminated {job : Job} {ops : List JobOp} {info : SigInfo}
    (h : job.Reaps (ops ++ [.reaped info])) : ¬ Terminated info.siPid ops := by
  intro ht
  obtain ⟨i, hi, hpid, hterm⟩ := ht.exists_mem
  obtain ⟨before, after, rfl⟩ := List.append_of_mem hi
  rw [List.append_assoc, List.cons_append] at h
  have hl := h.events_after hterm
  rw [hpid, events_append, List.append_eq_nil_iff] at hl
  simp [events, JobOp.eventOf] at hl

lemma recordInfo_eq_map (info : SigInfo) {ps : List Process} (h : (ps.map Process.pid).Nodup) :
    recordInfo info ps = ps.map fun p =>
      if p.pid = info.siPid then { p with isRunning := false, info := info } else p := by
  induction ps with
  | nil => rfl
  | cons p ps ih =>
    rw [List.map_cons, List.nodup_cons] at h
    rw [recordInfo, List.map_cons]
    by_cases hp : p.pid = info.siPid
    · rw [if_pos hp, if_pos hp]
      congr 1
      refine (List.map_id ps).symm.trans (List.map_congr_left fun q hq => ?_)
      rw [if_neg]
      · rfl
      · intro he
        exact h.1 (List.mem_map.mpr ⟨q, hq, he.trans hp.symm⟩)
    · rw [if_neg hp, if_neg hp, ih h.2]

def processesAfter (ops : List JobOp) (ps : List Process) : List Process :=
  ps.map fun p =>
    { p with
      info := ((events p.pid ops).getLast?).getD p.info
      isRunning := runningAfter p.pid true ops }

lemma map_pid_processesAfter (ops : List JobOp) (ps : List Process) :
    (processesAfter ops ps).map Process.pid = ps.map Process.pid := by
  simp [processesAfter, Function.comp_def]

lemma processesAfter_reaped (ops : List JobOp) (info : SigInfo) {ps : List Process}
    (h : (ps.map Process.pid).Nodup) :
    recordInfo info (processesAfter ops ps) = processesAfter (ops ++ [.reaped info]) ps := by
  rw [recordInfo_eq_map info (by rwa [map_pid_processesAfter]), processesAfter, processesAfter,
    List.map_map]
  refine List.map_congr_left fun p _ => ?_
  rw [events_append, runningAfter_append]
  by_cases hp : info.siPid = p.pid
  · simp [events, JobOp.eventOf, runningAfter, hp]
  · simp [events, JobOp.eventOf, runningAfter, hp, Ne.symm hp]

lemma processesAfter_move (ops : List JobOp) {op : JobOp} (ps : List Process) (h : op.IsMove) :
    (processesAfter ops ps).map (fun p => { p with isRunning := true }) =
      processesAfter (ops ++ [op]) ps := by
  rw [processesAfter, processesAfter, List.map_map]
  refine List.map_congr_left fun p _ => ?_
  rw [events_append_move p.pid ops h, runningAfter_append_move p.pid true ops h]
  rfl

structure Job.After (start : Job) (ops : List JobOp) (job : Job) : Prop where
  processes : job.processes = processesAfter ops start.processes
  finished : job.state = .done → job.allFinished = true

lemma Job.After.hasCompleted {start job : Job} {ops : List JobOp} (h : start.After ops job) :
    job.hasCompleted.1 = job.allFinished := by
  rw [Job.hasCompleted]
  by_cases hd : job.state = .done
  · rw [if_pos hd, h.finished hd]
  · rw [if_neg hd]
    by_cases hf : job.allFinished = true
    · rw [if_pos hf, hf]
    · rw [if_neg hf, Bool.eq_false_iff.mpr hf]

lemma Job.allFinished_eq_true {job : Job} :
    job.allFinished = true ↔
      ∀ p ∈ job.processes, p.isRunning = false ∧ hasProcesesTerminated p = true := by
  simp [Job.allFinished]

section Fresh

variable {start job : Job} {ops : List JobOp}

lemma Job.Fresh.terminated_iff (hs : start.Fresh) {p : Process} (hp : p ∈ start.processes) :
    (((events p.pid ops).getLast?).getD p.info).siCode.isTermination = true ↔
      Terminated p.pid ops := by
  cases hl : (events p.pid ops).getLast? with
  | none =>
    rw [Option.getD_none, hs.unset p hp]
    simp [SiCode.isTermination, Terminated, hl]
  | some info => simp [Terminated, hl]

lemma Job.After.allFinished_iff (h : start.After ops job) (hs : start.Fresh) :
    job.allFinished = true ↔ ∀ p ∈ start.processes,
      runningAfter p.pid true ops = false ∧ Terminated p.pid ops := by
  rw [Job.allFinished_eq_true, h.processes]
  simp only [processesAfter, List.mem_map, forall_exists_index, and_imp,
    forall_apply_eq_imp_iff₂, hasProcesesTerminated]
  refine forall₂_congr fun p hp => ?_
  rw [hs.terminated_iff hp]

lemma Job.After.reaped {info : SigInfo} (h : start.After ops job) (hs : start.Fresh)
    (hr : start.Reaps (ops ++ [.reaped info])) :
    start.After (ops ++ [.reaped info]) (job.takeEvent info).2 := by
  have hown : info.siPid ∈ job.processes.map Process.pid := by
    rw [h.processes, map_pid_processesAfter]
    exact hr.own info (List.mem_append_right _ (List.mem_singleton_self _))
  have hnot : job.state ≠ .done := by
    intro hd
    obtain ⟨p, hp, hpid⟩ :=
      List.mem_map.mp (hr.own info (List.mem_append_right _ (List.mem_singleton_self _)))
    have hterm := ((h.allFinished_iff hs).mp (h.finished hd) p hp).2
    exact hr.not_terminated (hpid ▸ hterm)
  rw [Job.takeEvent]
  cases hg : getProcess job.processes info.siPid with
  | none =>
    obtain ⟨p, hp, hpid⟩ := List.mem_map.mp hown
    have hne := List.find?_eq_none.mp hg p hp
    simp [hpid] at hne
  | some p =>
    obtain ⟨state, he, hfin, -⟩ := Job.setJobState_spec
      { job with processes := recordInfo info job.processes }
      (some { p with isRunning := false, info := info })
    simp only [he]
    constructor
    · rw [h.processes]
      exact processesAfter_reaped ops info hs.nodup
    · intro hd
      exact (hfin hd).resolve_left hnot

lemma Job.After.move {op : JobOp} {job' : Job} (h : start.After ops job) (hm : op.IsMove)
    (hp : job'.processes = job.processes.map fun p => { p with isRunning := true })
    (hd : job'.state ≠ .done) : start.After (ops ++ [op]) job' where
  processes := by rw [hp, h.processes, processesAfter_move ops _ hm]
  finished he := absurd he hd

lemma Job.run_append (job : Job) (ops : List JobOp) (op : JobOp) :
    job.run (ops ++ [op]) = (job.run ops).apply op := by
  rw [Job.run, List.foldl_append]
  rfl

lemma Job.Fresh.after_run (hs : start.Fresh) (hr : start.Reaps ops) :
    start.After ops (start.run ops) := by
  induction ops using List.reverseRecOn with
  | nil =>
    refine ⟨?_, fun hd => absurd hd hs.not_done⟩
    refine (List.map_id _).symm.trans (List.map_congr_left fun p hp => ?_)
    rw [show (events p.pid []).getLast?.getD p.info = p.info from rfl,
      show runningAfter p.pid true [] = p.isRunning from (hs.running p hp).symm]
    rfl
  | append_singleton ops op ih =>
    have h := ih hr.of_append
    rw [Job.run_append]
    cases op with
    | reaped info => exact h.reaped hs hr
    | fg => exact h.move trivial rfl nofun
    | bg => exact h.move trivial rfl nofun

end Fresh

theorem has_completed_iff_terminated (job : Job) (ops : List JobOp) (hjob : job.Fresh)
    (hops : job.Reaps ops) :
    ((job.run ops).hasCompleted.1 = true ↔ ∀ p ∈ job.processes, Terminated p.pid ops) ↔
      ((∀ p ∈ job.processes, Terminated p.pid ops) → ¬ MovedAfterTermination ops) := by
  have hafter := hjob.after_run hops
  rw [hafter.hasCompleted, hafter.allFinished_iff hjob]
  constructor
  · intro h hall hmoved
    obtain ⟨before, info, after, rfl, hterm, hmove⟩ := hmoved
    have hown := hops.own info (List.mem_append_right _ List.mem_cons_self)
    obtain ⟨p, hp, hpid⟩ := List.mem_map.mp hown
    have hev := hops.events_after hterm
    have hrun := (h.mpr hall p hp).1
    rw [runningAfter_append, runningAfter, hpid, runningAfter_of_moved hev (Or.inr hmove)] at hrun
    exact Bool.noConfusion hrun
  · intro h
    constructor
    · exact fun hall p hp => (hall p hp).2
    · intro hall p hp
      refine ⟨?_, hall p hp⟩
      by_contra hrun
      exact h hall (moved_of_running (hall p hp) (Bool.not_eq_false _ ▸ hrun))

def pipelineOfTwo : Job :=
  ⟨.foreground, 0, 1, [⟨1, ⟨0, .unset, 0⟩, true⟩, ⟨2, ⟨0, .unset, 0⟩, true⟩]⟩

def stoppedHalfway : List JobOp :=
  [.reaped ⟨1, .exited, 0⟩, .reaped ⟨2, .stopped, 20⟩, .fg, .reaped ⟨2, .exited, 0⟩]

lemma pipelineOfTwo_fresh : pipelineOfTwo.Fresh where
  nodup := by decide
  unset := by decide
  running := by decide
  not_done := by decide

lemma stoppedHalfway_reaps : pipelineOfTwo.Reaps stoppedHalfway where
  own := by simp [stoppedHalfway, pipelineOfTwo]
  last := by decide

lemma stoppedHalfway_terminated : ∀ p ∈ pipelineOfTwo.processes, Terminated p.pid stoppedHalfway := by
  intro p hp
  simp only [pipelineOfTwo, List.mem_cons, List.not_mem_nil, or_false] at hp
  rcases hp with rfl | rfl
  · exact ⟨⟨1, .exited, 0⟩, rfl, rfl⟩
  · exact ⟨⟨2, .exited, 0⟩, rfl, rfl⟩

theorem has_completed_iff_terminated_halfway :
    ((pipelineOfTwo.run stoppedHalfway).hasCompleted.1 = true ↔
      ∀ p ∈ pipelineOfTwo.processes, Terminated p.pid stoppedHalfway) ↔
    ((∀ p ∈ pipelineOfTwo.processes, Terminated p.pid stoppedHalfway) →
      ¬ MovedAfterTermination stoppedHalfway) :=
  has_completed_iff_terminated pipelineOfTwo stoppedHalfway pipelineOfTwo_fresh stoppedHalfway_reaps

theorem has_completed_misses_termination :
    ¬ ∀ (job : Job) (ops : List JobOp), job.Fresh → job.processes ≠ [] → job.Reaps ops →
      ((job.run ops).hasCompleted.1 = true ↔ ∀ p ∈ job.processes, Terminated p.pid ops) := by
  intro h
  have hiff := h pipelineOfTwo stoppedHalfway pipelineOfTwo_fresh (by decide) stoppedHalfway_reaps
  have hcompleted := hiff.mpr stoppedHalfway_terminated
  revert hcompleted
  decide

end SystemsLab.Shell
