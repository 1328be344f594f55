import Mathlib.Data.List.Basic
import Mathlib.Data.Int.Notation
import Mathlib.Data.Nat.Notation

/-! Processes and jobs of the shell (`job.c`), and what a child event does to a job. -/

namespace SystemsLab.Shell

/-- The `si_code` of a child event; `unset` is the zero of a process without any event. -/
inductive SiCode
  | unset
  | exited
  | killed
  | dumped
  | trapped
  | stopped
  | continued
deriving DecidableEq

structure SigInfo where
  siPid : ℤ
  siCode : SiCode
  siStatus : ℤ

structure Process where
  pid : ℤ
  info : SigInfo
  isRunning : Bool

def defaultProcess : Process := ⟨-1, ⟨0, .unset, 0⟩, false⟩

inductive JobState
  | null
  | foreground
  | background
  | stopped
  | done
deriving DecidableEq

/-- `processes` is the chain from `first_process` to `last_process`. -/
structure Job where
  state : JobState
  id : ℕ
  pgid : ℤ
  processes : List Process

def newJob : Job := ⟨.null, 0, -1, []⟩

def getProcess (processes : List Process) (pid : ℤ) : Option Process :=
  processes.find? (fun p => p.pid == pid)

def SiCode.isTermination : SiCode → Bool
  | .exited | .killed | .dumped => true
  | _ => false

def hasProcesesTerminated (p : Process) : Bool := p.info.siCode.isTermination

def Job.allFinished (job : Job) : Bool :=
  job.processes.all fun p => !p.isRunning && hasProcesesTerminated p

def Job.hasCompleted (job : Job) : Bool × Job :=
  if job.state = .done then (true, job)
  else if job.allFinished then (true, { job with state := .done })
  else (false, job)

def Job.hasStopped (job : Job) : Bool := job.state == .stopped

inductive ProcessState
  | notRunning
  | running
deriving DecidableEq

def Job.setJobProcessState (job : Job) (state : ProcessState) : Job :=
  { job with processes := job.processes.map fun p => { p with isRunning := state = .running } }

def Job.setJobState (job : Job) (process : Option Process) : Job :=
  let (completed, job) := job.hasCompleted
  if completed then job
  else
    match process with
    | none => job
    | some p =>
      match p.info.siCode with
      | .stopped => { job with state := .stopped }
      | .continued =>
        if job.state ≠ .foreground then { job with state := .background } else job
      | _ => job

lemma Job.setJobState_spec (job : Job) (process : Option Process) :
    ∃ state, job.setJobState process = { job with state := state } ∧
      (state = .done → job.state = .done ∨ job.allFinished = true) ∧
      (state = job.state ∨ state = .stopped ∨ state = .background ∨ state = .done) := by
  rw [Job.setJobState, Job.hasCompleted]
  by_cases hd : job.state = .done
  · rw [if_pos hd]
    exact ⟨job.state, rfl, Or.inl, Or.inl rfl⟩
  rw [if_neg hd]
  by_cases hf : job.allFinished = true
  · rw [if_pos hf]
    exact ⟨.done, rfl, fun _ => Or.inr hf, Or.inr (Or.inr (Or.inr rfl))⟩
  rw [if_neg hf]
  have hsame : ∃ state, job = { job with state := state } ∧
      (state = .done → job.state = .done ∨ job.allFinished = true) ∧
      (state = job.state ∨ state = .stopped ∨ state = .background ∨ state = .done) :=
    ⟨job.state, rfl, Or.inl, Or.inl rfl⟩
  cases process with
  | none => exact hsame
  | some p =>
    cases hc : p.info.siCode with
    | stopped =>
      simp only [hc]
      exact ⟨.stopped, rfl, nofun, Or.inr (Or.inl rfl)⟩
    | continued =>
      simp only [hc]
      by_cases hfg : job.state ≠ .foreground
      · exact ⟨.background, by simp [hfg], nofun, Or.inr (Or.inr (Or.inl rfl))⟩
      · simpa [hfg] using! hsame
    | _ => simpa [hc] using! hsame

/-- The first process with the pid of the event takes the event over. -/
def recordInfo (info : SigInfo) : List Process → List Process
  | [] => []
  | p :: ps =>
    if p.pid = info.siPid then { p with isRunning := false, info := info } :: ps
    else p :: recordInfo info ps

/-- What `wait_for_any_process` does to the job that the event belongs to. -/
def Job.takeEvent (job : Job) (info : SigInfo) : Option Process × Job :=
  match getProcess job.processes info.siPid with
  | none => (none, job)
  | some p =>
    let p : Process := { p with isRunning := false, info := info }
    (some p, { job with processes := recordInfo info job.processes }.setJobState (some p))

/-- What `set_foreground_job` makes of the job that it moves. -/
def Job.moveToForeground (job : Job) : Job :=
  { job with state := .foreground, id := 0 }.setJobProcessState .running

/-- What `run_bg` makes of the job that it moves. -/
def Job.moveToBackground (job : Job) : Job :=
  { job.setJobProcessState .running with state := .background }

end SystemsLab.Shell
