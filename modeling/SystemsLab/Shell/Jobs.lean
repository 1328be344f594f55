import SystemsLab.Shell.Job
import SystemsLab.Effects.Ending
import Mathlib.Logic.Function.Basic

/-! The job table of the shell (`jobs.c`, and `handle_pending_sigchld` of `pa2.c`). Jobs live on a
heap, and a slot of the table holds the address of a job. -/

namespace SystemsLab.Shell

abbrev Ref := ℕ

def maxJobs : ℕ := 8192

structure Jobs where
  table : ℕ → Option Ref
  numJobs : ℕ
  highestJobId : ℕ

/-- A call of `add_job_to_table`: the index it stores at, and the job table it finds. -/
structure AddCall where
  index : ℕ
  before : Jobs

/-- The heap forgets a job when it is freed; `next` is the address of the next job. `addCalls`
keeps the calls of `add_job_to_table` so far and has no counterpart in the source. -/
structure State where
  heap : Ref → Option Job
  next : Ref
  jobs : Jobs
  addCalls : List AddCall

def initialState : State := ⟨fun _ => none, 0, ⟨fun _ => none, 0, 0⟩, []⟩

inductive Fault
  | nullPointer
  | freedPointer
  | outOfTable
deriving DecidableEq

/-- Why a command does not return: undefined behaviour, a wait that no further event ends, or the
end of the process. -/
inductive Stop
  | fault (f : Fault)
  | asleep
  | exited (status : ℤ)

abbrev ShellM := EStateM Stop State

def fault {α : Type} (f : Fault) : ShellM α := throw (.fault f)

def deref (r : Ref) : ShellM Job := do
  match (← get).heap r with
  | some job => pure job
  | none => fault .freedPointer

def store (r : Ref) (job : Job) : ShellM Unit :=
  modify fun s => { s with heap := Function.update s.heap r (some job) }

def modifyJob (r : Ref) (f : Job → Job) : ShellM Unit := do
  store r (f (← deref r))

def slot (i : ℕ) : ShellM (Option Ref) := do
  if i ≤ maxJobs then return (← get).jobs.table i else fault .outOfTable

def setSlot (i : ℕ) (v : Option Ref) : ShellM Unit := do
  if i ≤ maxJobs then
    modify fun s => { s with jobs := { s.jobs with table := Function.update s.jobs.table i v } }
  else fault .outOfTable

def setNumJobs (n : ℕ) : ShellM Unit :=
  modify fun s => { s with jobs := { s.jobs with numJobs := n } }

def setHighestJobId (n : ℕ) : ShellM Unit :=
  modify fun s => { s with jobs := { s.jobs with highestJobId := n } }

def defaultJob : ShellM Ref := do
  let r := (← get).next
  modify fun s => { s with next := r + 1 }
  store r newJob
  return r

def freeJob : Option Ref → ShellM Unit
  | none => return ()
  | some r => do
    let _ ← deref r
    modify fun s => { s with heap := Function.update s.heap r none }

def hasCompleted : Option Ref → ShellM Bool
  | none => return true
  | some r => do
    let (completed, job) := (← deref r).hasCompleted
    store r job
    return completed

/-- The loop of `update_highest_job_id`; the argument is the value of `highest_job_id`. -/
def lowerHighestJobId : ℕ → ShellM Unit
  | 0 => return ()
  | h + 1 => do
    match ← slot (h + 1) with
    | none => do
      setHighestJobId h
      lowerHighestJobId h
    | some r => do
      let job ← deref r
      if job.state = .background ∨ job.state = .stopped then return ()
      else
        setHighestJobId h
        lowerHighestJobId h

def updateHighestJobId : ShellM Unit := do
  lowerHighestJobId (← get).jobs.highestJobId

def setForegroundJob (r : Ref) : ShellM Unit := do
  let job ← deref r
  setSlot job.id none
  if job.state ≠ .foreground ∧ job.id ≠ 0 then
    setNumJobs ((← get).jobs.numJobs - 1)
    updateHighestJobId
  modifyJob r fun job => { job with state := .foreground, id := 0 }
  setSlot 0 (some r)
  modifyJob r (·.setJobProcessState .running)

def removeForegroundJob (shouldFree : Bool) : ShellM Unit := do
  if shouldFree then freeJob (← slot 0)
  setSlot 0 none

def addJobToTable (r : Ref) : ShellM Unit := do
  let before := (← get).jobs
  let id := before.highestJobId + 1
  modify fun s => { s with addCalls := ⟨id, before⟩ :: s.addCalls }
  setHighestJobId id
  modifyJob r fun job => { job with id := id }
  setSlot id (some r)
  setNumJobs (before.numJobs + 1)

def removeJobFromTable (r : Ref) : ShellM Unit := do
  let job ← deref r
  setSlot job.id none
  if job.id > 0 then setNumJobs ((← get).jobs.numJobs - 1)
  updateHighestJobId

def isJobTableEmpty : ShellM Bool := return (← get).jobs.numJobs == 0

/-- The loop of `get_highest_stopped_job_id`, downwards from its argument. -/
def highestStoppedFrom : ℕ → ShellM ℕ
  | 0 => return 0
  | i + 1 => do
    match ← slot (i + 1) with
    | none => fault .nullPointer
    | some r => do
      let job ← deref r
      if job.state = .stopped then return i + 1 else highestStoppedFrom i

def getHighestStoppedJobId : ShellM ℕ := do highestStoppedFrom (← get).jobs.highestJobId

/-- The loop of `find_job_by_pid` over the `n` slots from `i` on. -/
def findJobFrom (pid : ℤ) : ℕ → ℕ → ShellM (Option Ref)
  | 0, _ => return none
  | n + 1, i => do
    match ← slot i with
    | none => findJobFrom pid n (i + 1)
    | some r => do
      let job ← deref r
      if (getProcess job.processes pid).isSome then return some r else findJobFrom pid n (i + 1)

def findJobByPid (pid : ℤ) : ShellM (Option Ref) := findJobFrom pid maxJobs 0

def findJobById (id : ℕ) : ShellM (Option Ref) := do
  if id = 0 ∨ id > maxJobs then return none else slot id

/-- `report` is what `waitid` returns: an event, or `none` if there is none or no child. -/
def waitForAnyProcess (report : Option SigInfo) : ShellM (Option (Ref × Process)) := do
  match report with
  | none => return none
  | some info => do
    match ← findJobByPid info.siPid with
    | none => return none
    | some r => do
      let (process, job) := (← deref r).takeEvent info
      store r job
      return process.map fun p => (r, p)

/-- The last `if` of `handle_pending_sigchld`. -/
def removeIfCompleted (tableJob : Bool) (r : Ref) : ShellM Unit := do
  if tableJob then
    if ← hasCompleted (some r) then
      removeJobFromTable r
      freeJob (some r)

/-- The inner loop of `handle_pending_sigchld`, with the events that `waitid` has to report. -/
def reapAll : List SigInfo → ShellM Unit
  | [] => return ()
  | info :: reports => do
    match ← waitForAnyProcess (some info) with
    | none => return ()
    | some (r, process) => do
      let job ← deref r
      let tableJob := decide (job.id > 0)
      modifyJob r (·.setJobState (some process))
      removeIfCompleted tableJob r
      reapAll reports

/-- One entry of `rounds` for each pass through the outer loop, which goes on while
`pending_sigchld` is set again. Without an entry `pending_sigchld` was not set. -/
def handlePendingSigchld (rounds : List (List SigInfo)) : ShellM Unit := rounds.forM reapAll

/-- The loop of `wait_for_processes`. Each entry of `wakes` is what has happened to the children
when the loop looks at the job again; after the last one `sigsuspend` does not return. -/
def waitAt (jobLoc : ℕ) : List (List (List SigInfo)) → ShellM JobState
  | [] => throw .asleep
  | rounds :: wakes => do
    handlePendingSigchld rounds
    match ← slot jobLoc with
    | none => return .done
    | some r => do
      if ← hasCompleted (some r) then return (← deref r).state
      else if (← deref r).hasStopped then return (← deref r).state
      else waitAt jobLoc wakes

def waitForProcesses (r : Ref) (wakes : List (List (List SigInfo))) : ShellM JobState := do
  waitAt (← deref r).id wakes

/-- The end of the foreground case of `handle_job`. -/
def endForeground (r : Ref) : ShellM ℤ := do
  match (← deref r).processes.getLast? with
  | none => fault .nullPointer
  | some last => do
    let status :=
      if last.info.siCode = .killed ∨ last.info.siCode = .dumped then 128 + last.info.siStatus
      else last.info.siStatus
    removeForegroundJob ((← deref r).state == .done)
    return status

def handleJob (r : Ref) (wakes : List (List (List SigInfo))) : ShellM ℤ := do
  match (← deref r).state with
  | .foreground => do
    let _ ← waitForProcesses r wakes
    if (← deref r).state = .stopped then addJobToTable r
    endForeground r
  | .background => do
    addJobToTable r
    return 0
  | _ => return 1

end SystemsLab.Shell
