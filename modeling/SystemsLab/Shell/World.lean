import SystemsLab.Effects.Parts
import SystemsLab.Shell.Interpret

/-! The shell together with its children. The kernel knows for every child that has not been reaped
yet which job it was started for, and it is noted down whenever a process is started, a child event
is reported and the job table is searched. The functions below are those of the source that do one
of these things, or call one that does. -/

namespace SystemsLab.Shell

open Effects CLib

/-- `holder` is the job of the child that already has the pid, `leads` tells whether the pid is the id
of a process group that lives, and `owner` is the job of the child that the event is about. -/
inductive Note
  | started (pid : ℤ) (holder : Option Ref) (leads : Bool)
  | reported (info : SigInfo) (owner : Option Ref) (before : State)
  | searched (before : State)

/-- The kernel gives no pid away that a child has until it is reaped, or that a group has until it is
empty, and it reports an event of a child that has not been reaped. -/
def Note.Possible : Note → Prop
  | .started _ holder leads => holder = none ∧ leads = false
  | .reported _ owner _ => owner ≠ none
  | .searched _ => True

structure World where
  shell : State
  children : ℤ → Option Ref
  notes : List Note

abbrev WorldM := EStateM Stop World

def inWorld : Part World State := ⟨World.shell, fun w s => { w with shell := s }, fun _ _ => rfl⟩

instance : MonadLift ShellM WorldM := ⟨inWorld.run⟩

namespace World

/-- A child is in the process group of its job until it leaves it. -/
def inGroup (w : World) (left : ℤ → Bool) (pgid pid : ℤ) : Bool :=
  match w.children pid with
  | none => false
  | some r =>
    match w.shell.heap r with
    | some job => job.pgid == pgid && !left pid
    | none => false

def leads (w : World) (left : ℤ → Bool) (pgid : ℤ) : Bool :=
  (List.range w.shell.next).any fun r =>
    match w.shell.heap r with
    | some job => job.processes.any fun process => w.inGroup left pgid process.pid
    | none => false

def starting (w : World) (r : Ref) (pid : ℤ) (left : ℤ → Bool) : World :=
  { w with
    children := Function.update w.children pid (some r)
    notes := .started pid (w.children pid) (w.leads left pid) :: w.notes }

/-- `waitpid` gets the children that are in the group. -/
def reapGroup (w : World) (left : ℤ → Bool) (pgid : ℤ) : World :=
  { w with children := fun pid => if w.inGroup left pgid pid then none else w.children pid }

def endGroup (told : Told) (pgid : ℤ) : WorldM Unit :=
  if pgid > 0 then
    if told.ends then modify (reapGroup · told.left pgid) else throw .asleep
  else return ()

/-- A termination is the last event of a child. -/
def reporting (w : World) (info : SigInfo) : World :=
  { w with
    children :=
      if info.siCode.isTermination then Function.update w.children info.siPid none else w.children
    notes := .reported info (w.children info.siPid) w.shell :: w.notes }

def searching (w : World) : World := { w with notes := .searched w.shell :: w.notes }

def reapAll : List SigInfo → WorldM Unit
  | [] => return ()
  | info :: reports => do
    modify (reporting · info)
    match ← waitForAnyProcess (some info) with
    | none => return ()
    | some (r, process) => do
      let job ← deref r
      let tableJob := decide (job.id > 0)
      modifyJob r (·.setJobState (some process))
      removeIfCompleted tableJob r
      reapAll reports

def handlePendingSigchld (rounds : List (List SigInfo)) : WorldM Unit := rounds.forM reapAll

def waitAt (jobLoc : ℕ) : List (List (List SigInfo)) → WorldM JobState
  | [] => throw .asleep
  | rounds :: wakes => do
    handlePendingSigchld rounds
    match ← slot jobLoc with
    | none => return .done
    | some r => do
      if ← hasCompleted (some r) then return (← deref r).state
      else if (← deref r).hasStopped then return (← deref r).state
      else waitAt jobLoc wakes

def waitForProcesses (r : Ref) (wakes : List (List (List SigInfo))) : WorldM JobState := do
  waitAt (← deref r).id wakes

def handleJob (r : Ref) (wakes : List (List (List SigInfo))) : WorldM ℤ := do
  match (← deref r).state with
  | .foreground => do
    let _ ← waitForProcesses r wakes
    if (← deref r).state = .stopped then addJobToTable r
    endForeground r
  | .background => do
    addJobToTable r
    return 0
  | _ => return 1

def runFg (operands : List Bytes) (wakes : List (List (List SigInfo))) : WorldM ℤ := do
  removeForegroundJob true
  if ← isJobTableEmpty then return 2
  else
    modify searching
    match ← getJobToMove operands (← (get : ShellM State)).jobs.highestJobId with
    | none => return 2
    | some r => do
      setForegroundJob r
      handleJob r wakes

def runBg (operands : List Bytes) : WorldM ℤ := do
  removeForegroundJob true
  modify searching
  let elseValue ← getHighestStoppedJobId
  match ← getJobToMove operands elseValue with
  | none => if ← isJobTableEmpty then return 1 else return 2
  | some r => do
    modifyJob r (·.setJobProcessState .running)
    modifyJob r fun job => { job with state := .background }
    return 0

def runBuiltinCommand (name : Bytes) (operands : List Bytes) (lastStatus : ℤ) (a : Answers) :
    WorldM ℤ := do
  if name = ascii "exit" then runExit operands lastStatus
  else if name = ascii "cd" then return a.directory
  else if name = ascii "pwd" then return a.directory
  else if name = ascii "jobs" then runJobs
  else if name = ascii "fg" then runFg operands a.wakes
  else if name = ascii "bg" then runBg operands
  else return 1

def runRedirected (name : Bytes) (operands : List Bytes) (lastStatus : ℤ) (a : Answers) :
    WorldM ℤ := do
  if a.dupFails then return 1
  else if a.redirection ≠ 0 then
    if a.restoreFails then return 1 else return a.redirection
  else
    let status ← runBuiltinCommand name operands lastStatus a
    if a.restoreFails then return 1 else return status

def runSingleBuiltinCommand (command : Command) (lastStatus : ℤ) (a : Answers) : WorldM ℤ := do
  match command.args with
  | [] => (fault .nullPointer : ShellM ℤ)
  | name :: operands => do
    let empty ← isJobTableEmpty
    if name = ascii "exit" ∧ empty = false then return 1
    else
      let r ← defaultJob
      setForegroundJob r
      let status ← runRedirected name operands lastStatus a
      if (← slot 0) = some r then removeForegroundJob true
      return status

def startFrom (r : Ref) (spawn : ℕ → Spawn) : ℕ → List Command → WorldM Bool
  | _, [] => return true
  | k, _ :: commands => do
    if commands ≠ [] ∧ (spawn k).pipeFails then
      endGroup (spawn k).told (← (deref r : ShellM Job)).pgid
      freeJob (some r)
      return false
    else
      match (spawn k).fork with
      | none => throw (.exited 1)
      | some pid => do
        modify (starting · r pid (spawn k).told.left)
        modifyJob r (·.startProcess pid)
        startFrom r spawn (k + 1) commands

def runPipeline (pipeline : Pipeline) (a : Answers) : WorldM ℤ := do
  let r ← defaultJob
  if pipeline.isInBackground then modifyJob r fun job => { job with state := .background }
  else setForegroundJob r
  if ← startFrom r a.spawn 0 pipeline.commands then handleJob r a.wakes
  else return 1

def interpret (pipeline : Pipeline) (lastStatus : ℤ) (a : Answers) : WorldM ℤ := do
  match pipeline.commands with
  | [] => return 0
  | [command] =>
    if command.type = .builtin then runSingleBuiltinCommand command lastStatus a
    else runPipeline pipeline a
  | _ => runPipeline pipeline a

def runInput (lastStatus : ℤ) : Input → WorldM ℤ
  | .sigchld rounds => do
    handlePendingSigchld rounds
    return lastStatus
  | .sigint => return 130
  | .pipeline p a => interpret p lastStatus a

def runShell (inputs : List Input) : WorldM ℤ := inputs.foldlM runInput 0

lemma erases_lift {α : Type} (m : ShellM α) : inWorld.Erases (liftM m : WorldM α) m := .run m

lemma erases_lift_bind {α β : Type} {m : ShellM α} {f' : α → WorldM β} {f : α → ShellM β}
    (h : ∀ a, inWorld.Erases (f' a) (f a)) : inWorld.Erases (liftM m >>= f') (m >>= f) :=
  .run_bind h

lemma erases_reapAll (reports : List SigInfo) :
    inWorld.Erases (reapAll reports) (Shell.reapAll reports) := by
  induction reports with
  | nil => exact .pure ()
  | cons info reports ih =>
    apply Part.Erases.aside
    · exact fun _ => rfl
    · apply erases_lift_bind
      intro o
      rcases o with _ | ⟨r, process⟩
      · exact .pure ()
      · apply erases_lift_bind
        intro job
        apply erases_lift_bind
        intro _
        apply erases_lift_bind
        exact fun _ => ih

lemma erases_handlePendingSigchld (rounds : List (List SigInfo)) :
    inWorld.Erases (handlePendingSigchld rounds) (Shell.handlePendingSigchld rounds) :=
  .forM erases_reapAll rounds

lemma erases_waitAt (jobLoc : ℕ) (wakes : List (List (List SigInfo))) :
    inWorld.Erases (waitAt jobLoc wakes) (Shell.waitAt jobLoc wakes) := by
  induction wakes with
  | nil => exact .throw _
  | cons rounds wakes ih =>
    have hstate : ∀ r, inWorld.Erases (do return (← (deref r : ShellM Job)).state : WorldM JobState)
        (do return (← deref r).state) := by
      intro r
      apply erases_lift_bind
      exact fun job => .pure job.state
    apply Part.Erases.bind (erases_handlePendingSigchld rounds)
    intro _
    apply erases_lift_bind
    intro o
    cases o with
    | none => exact .pure _
    | some r =>
      apply erases_lift_bind
      intro completed
      apply Part.Erases.ite (hstate r)
      apply erases_lift_bind
      intro job
      exact Part.Erases.ite (hstate r) ih

lemma erases_handleJob (r : Ref) (wakes : List (List (List SigInfo))) :
    inWorld.Erases (handleJob r wakes) (Shell.handleJob r wakes) := by
  apply erases_lift_bind
  intro job
  cases job.state with
  | foreground =>
    apply Part.Erases.bind
    · apply erases_lift_bind
      exact fun job => erases_waitAt job.id wakes
    · intro _
      apply erases_lift_bind
      intro job
      apply Part.Erases.ite
      · apply erases_lift_bind
        exact fun _ => erases_lift _
      · exact erases_lift _
  | background =>
    apply erases_lift_bind
    exact fun _ => .pure 0
  | _ => exact .pure 1

lemma erases_runFg (operands : List Bytes) (wakes : List (List (List SigInfo))) :
    inWorld.Erases (runFg operands wakes) (Shell.runFg operands wakes) := by
  apply erases_lift_bind
  intro _
  apply erases_lift_bind
  intro empty
  apply Part.Erases.ite (.pure 2)
  apply Part.Erases.aside
  · exact fun _ => rfl
  · apply erases_lift_bind
    intro s
    apply erases_lift_bind
    intro o
    cases o with
    | none => exact .pure 2
    | some r =>
      apply erases_lift_bind
      exact fun _ => erases_handleJob r wakes

lemma erases_runBg (operands : List Bytes) :
    inWorld.Erases (runBg operands) (Shell.runBg operands) := by
  apply erases_lift_bind
  intro _
  apply Part.Erases.aside
  · exact fun _ => rfl
  · apply erases_lift_bind
    intro elseValue
    apply erases_lift_bind
    intro o
    cases o with
    | none =>
      apply erases_lift_bind
      exact fun empty => Part.Erases.ite (.pure 1) (.pure 2)
    | some r =>
      apply erases_lift_bind
      intro _
      apply erases_lift_bind
      exact fun _ => .pure 0

lemma erases_runBuiltinCommand (name : Bytes) (operands : List Bytes) (lastStatus : ℤ)
    (a : Answers) :
    inWorld.Erases (runBuiltinCommand name operands lastStatus a)
      (Shell.runBuiltinCommand name operands lastStatus a) := by
  apply Part.Erases.ite (erases_lift _)
  apply Part.Erases.ite (.pure _)
  apply Part.Erases.ite (.pure _)
  apply Part.Erases.ite (erases_lift _)
  apply Part.Erases.ite (erases_runFg operands a.wakes)
  exact Part.Erases.ite (erases_runBg operands) (.pure 1)

lemma erases_runRedirected (name : Bytes) (operands : List Bytes) (lastStatus : ℤ) (a : Answers) :
    inWorld.Erases (runRedirected name operands lastStatus a)
      (Shell.runRedirected name operands lastStatus a) := by
  apply Part.Erases.ite (.pure 1)
  apply Part.Erases.ite
  · exact Part.Erases.ite (.pure 1) (.pure _)
  · apply Part.Erases.bind (erases_runBuiltinCommand name operands lastStatus a)
    exact fun status => Part.Erases.ite (.pure 1) (.pure status)

lemma erases_runSingleBuiltinCommand (command : Command) (lastStatus : ℤ) (a : Answers) :
    inWorld.Erases (runSingleBuiltinCommand command lastStatus a)
      (Shell.runSingleBuiltinCommand command lastStatus a) := by
  rw [runSingleBuiltinCommand, Shell.runSingleBuiltinCommand]
  cases command.args with
  | nil => exact erases_lift _
  | cons name operands =>
    apply erases_lift_bind
    intro empty
    apply Part.Erases.ite (.pure 1)
    apply erases_lift_bind
    intro r
    apply erases_lift_bind
    intro _
    apply Part.Erases.bind (erases_runRedirected name operands lastStatus a)
    intro status
    apply erases_lift_bind
    intro front
    apply Part.Erases.ite
    · apply erases_lift_bind
      exact fun _ => .pure status
    · exact .pure status

lemma erases_endGroup (told : Told) (pgid : ℤ) :
    inWorld.Erases (endGroup told pgid) (Shell.endGroup told pgid) := by
  apply Part.Erases.ite
  · exact Part.Erases.ite (fun _ => rfl) (.throw _)
  · exact .pure ()

lemma erases_startFrom (r : Ref) (spawn : ℕ → Spawn) (k : ℕ) (commands : List Command) :
    inWorld.Erases (startFrom r spawn k commands) (Shell.startFrom r spawn k commands) := by
  induction commands generalizing k with
  | nil => exact .pure true
  | cons command commands ih =>
    apply Part.Erases.ite
    · apply erases_lift_bind
      intro job
      apply Part.Erases.bind (erases_endGroup (spawn k).told job.pgid)
      intro _
      apply erases_lift_bind
      exact fun _ => .pure false
    · cases (spawn k).fork with
      | none => exact .throw _
      | some pid =>
        apply Part.Erases.aside
        · exact fun _ => rfl
        · apply erases_lift_bind
          exact fun _ => ih (k + 1)

lemma erases_runPipeline (pipeline : Pipeline) (a : Answers) :
    inWorld.Erases (runPipeline pipeline a) (Shell.runPipeline pipeline a) := by
  have hrun : ∀ r, inWorld.Erases
      (do
        if ← startFrom r a.spawn 0 pipeline.commands then handleJob r a.wakes
        else return 1)
      (do
        if ← Shell.startFrom r a.spawn 0 pipeline.commands then Shell.handleJob r a.wakes
        else return 1) := by
    intro r
    apply Part.Erases.bind (erases_startFrom r a.spawn 0 pipeline.commands)
    exact fun started => Part.Erases.ite (erases_handleJob r a.wakes) (.pure 1)
  apply erases_lift_bind
  intro r
  apply Part.Erases.ite
  · apply erases_lift_bind
    exact fun _ => hrun r
  · apply erases_lift_bind
    exact fun _ => hrun r

lemma erases_interpret (pipeline : Pipeline) (lastStatus : ℤ) (a : Answers) :
    inWorld.Erases (interpret pipeline lastStatus a) (Shell.interpret pipeline lastStatus a) := by
  rw [interpret, Shell.interpret]
  rcases pipeline.commands with _ | ⟨command, _ | ⟨command', commands⟩⟩
  · exact .pure 0
  · apply Part.Erases.ite
    · exact erases_runSingleBuiltinCommand command lastStatus a
    · exact erases_runPipeline pipeline a
  · exact erases_runPipeline pipeline a

lemma erases_runInput (lastStatus : ℤ) (input : Input) :
    inWorld.Erases (runInput lastStatus input) (Shell.runInput lastStatus input) := by
  cases input with
  | sigchld rounds =>
    apply Part.Erases.bind (erases_handlePendingSigchld rounds)
    exact fun _ => .pure lastStatus
  | sigint => exact .pure 130
  | pipeline p a => exact erases_interpret p lastStatus a

theorem erases_runShell (inputs : List Input) :
    inWorld.Erases (runShell inputs) (Shell.runShell inputs) :=
  .foldlM erases_runInput inputs 0

end World

def initialWorld : World := ⟨initialState, fun _ => none, []⟩

def notes (inputs : List Input) : List Note :=
  match World.runShell inputs initialWorld with
  | .ok _ w => w.notes
  | .error _ w => w.notes

end SystemsLab.Shell
