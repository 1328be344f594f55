import SystemsLab.Shell.Jobs
import SystemsLab.CLib.Numbers

/-! Running pipelines and builtin commands (`pa2.c`, `builtin_commands.c`, `helper.c`). -/

namespace SystemsLab.Shell

open CLib

inductive CommandType
  | null
  | builtin
  | implemented
  | other
deriving DecidableEq

structure Command where
  args : List Bytes
  type : CommandType

structure Pipeline where
  isInBackground : Bool
  commands : List Command

/-- What comes of the processes of a group when they are told to end: whether those that are still in
it do so, and which children have left it before, as `setsid` does. -/
structure Told where
  ends : Bool
  left : ℤ → Bool

def Told.obeyed : Told := ⟨true, fun _ => false⟩

/-- What the kernel answers when a process of a pipeline is started: whether its `pipe` fails, and
the pid that `fork` returns if it does not fail. `told` is about the processes started before. -/
structure Spawn where
  pipeFails : Bool
  fork : Option ℤ
  told : Told

/-- What the kernel answers while a pipeline or a builtin command runs. `redirection` is the status
of `setup_redirection` and `dup2_stdio`, `directory` that of `cd` or `pwd`. -/
structure Answers where
  spawn : ℕ → Spawn
  wakes : List (List (List SigInfo))
  dupFails : Bool
  redirection : ℤ
  restoreFails : Bool
  directory : ℤ

/-- The conversion of a 64-bit integer to `pid_t`. -/
def toPid (n : ℤ) : ℤ := n.bmod (2 ^ 32)

def getJobToMove (operands : List Bytes) (elseValue : ℕ) : ShellM (Option Ref) := do
  match operands with
  | [] => findJobById elseValue
  | arg :: _ =>
    if arg.head? ≠ some 37 then
      let n := strtoll arg
      if n.rest ≠ [] ∨ n.rest = arg then return none
      else findJobByPid (toPid n.value)
    else
      let n := strtoll arg.tail
      if n.rest ≠ [] ∨ n.rest = arg.tail then return none
      else if n.value > 0 then findJobById n.value.toNat
      else return none

def runFg (operands : List Bytes) (wakes : List (List (List SigInfo))) : ShellM ℤ := do
  removeForegroundJob true
  if ← isJobTableEmpty then return 2
  else
    match ← getJobToMove operands (← get).jobs.highestJobId with
    | none => return 2
    | some r => do
      setForegroundJob r
      handleJob r wakes

def runBg (operands : List Bytes) : ShellM ℤ := do
  removeForegroundJob true
  let elseValue ← getHighestStoppedJobId
  match ← getJobToMove operands elseValue with
  | none => if ← isJobTableEmpty then return 1 else return 2
  | some r => do
    modifyJob r (·.setJobProcessState .running)
    modifyJob r fun job => { job with state := .background }
    return 0

/-- The loop of `run_jobs`, downwards from its argument. -/
def listJobsFrom : ℕ → ShellM ℤ
  | 0 => return 0
  | i + 1 => do
    match ← slot (i + 1) with
    | none => listJobsFrom i
    | some r => do
      let job ← deref r
      if job.state ≠ .null then listJobsFrom i else return 1

def runJobs : ShellM ℤ := do
  if ← isJobTableEmpty then return 1 else listJobsFrom (← get).jobs.highestJobId

def runExit (operands : List Bytes) (lastStatus : ℤ) : ShellM ℤ := do
  match operands with
  | [] => throw (.exited lastStatus)
  | [arg] =>
    let code := strtoll arg
    if code.erange ∨ arg = [] ∨ code.rest ≠ [] then return 1
    else if code.value < 0 ∨ code.value > 255 then throw (.exited 255)
    else throw (.exited code.value)
  | _ => return 1

def runBuiltinCommand (name : Bytes) (operands : List Bytes) (lastStatus : ℤ) (a : Answers) :
    ShellM ℤ := do
  if name = ascii "exit" then runExit operands lastStatus
  else if name = ascii "cd" then return a.directory
  else if name = ascii "pwd" then return a.directory
  else if name = ascii "jobs" then runJobs
  else if name = ascii "fg" then runFg operands a.wakes
  else if name = ascii "bg" then runBg operands
  else return 1

/-- The part of `run_single_builtin_command` before `cleanup`. -/
def runRedirected (name : Bytes) (operands : List Bytes) (lastStatus : ℤ) (a : Answers) :
    ShellM ℤ := do
  if a.dupFails then return 1
  else if a.redirection ≠ 0 then
    if a.restoreFails then return 1 else return a.redirection
  else
    let status ← runBuiltinCommand name operands lastStatus a
    if a.restoreFails then return 1 else return status

def runSingleBuiltinCommand (command : Command) (lastStatus : ℤ) (a : Answers) : ShellM ℤ := do
  match command.args with
  | [] => fault .nullPointer
  | name :: operands => do
    let empty ← isJobTableEmpty
    if name = ascii "exit" ∧ empty = false then return 1
    else
      let r ← defaultJob
      setForegroundJob r
      let status ← runRedirected name operands lastStatus a
      if (← slot 0) = some r then removeForegroundJob true
      return status

def Job.startProcess (job : Job) (pid : ℤ) : Job :=
  { job with
    processes := job.processes ++ [{ defaultProcess with pid := pid, isRunning := true }]
    pgid := if job.pgid = -1 then pid else job.pgid }

/-- The `kill` of a process group and the loop around `waitpid`. -/
def endGroup (told : Told) (pgid : ℤ) : ShellM Unit :=
  if pgid > 0 then
    if told.ends then return () else throw .asleep
  else return ()

/-- The loop of `run_pipeline` from its `k`-th command on; `false` if a pipe could not be made. -/
def startFrom (r : Ref) (spawn : ℕ → Spawn) : ℕ → List Command → ShellM Bool
  | _, [] => return true
  | k, _ :: commands => do
    if commands ≠ [] ∧ (spawn k).pipeFails then
      endGroup (spawn k).told (← deref r).pgid
      freeJob (some r)
      return false
    else
      match (spawn k).fork with
      | none => throw (.exited 1)
      | some pid => do
        modifyJob r (·.startProcess pid)
        startFrom r spawn (k + 1) commands

def runPipeline (pipeline : Pipeline) (a : Answers) : ShellM ℤ := do
  let r ← defaultJob
  if pipeline.isInBackground then modifyJob r fun job => { job with state := .background }
  else setForegroundJob r
  if ← startFrom r a.spawn 0 pipeline.commands then handleJob r a.wakes
  else return 1

def interpret (pipeline : Pipeline) (lastStatus : ℤ) (a : Answers) : ShellM ℤ := do
  match pipeline.commands with
  | [] => return 0
  | [command] =>
    if command.type = .builtin then runSingleBuiltinCommand command lastStatus a
    else runPipeline pipeline a
  | _ => runPipeline pipeline a

/-- What the main loop does next: it handles a pending signal or runs the next pipeline. -/
inductive Input
  | sigchld (rounds : List (List SigInfo))
  | sigint
  | pipeline (p : Pipeline) (a : Answers)

def runInput (lastStatus : ℤ) : Input → ShellM ℤ
  | .sigchld rounds => do
    handlePendingSigchld rounds
    return lastStatus
  | .sigint => return 130
  | .pipeline p a => interpret p lastStatus a

def runShell (inputs : List Input) : ShellM ℤ := inputs.foldlM runInput 0

end SystemsLab.Shell
