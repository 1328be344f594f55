import SystemsLab.Shell.Plumbing
import SystemsLab.Effects.Parts
import SystemsLab.Effects.Moves

namespace SystemsLab.Shell

open Effects CLib Plumbing

structure Holder where
  shell : State
  fds : Plumbing.Table

abbrev HolderM := EStateM Stop Holder

def inHolder : Part Holder State := ⟨Holder.shell, fun h s => { h with shell := s }, fun _ _ => rfl⟩

instance : MonadLift ShellM HolderM := ⟨inHolder.run⟩

/-- What the kernel answers to the calls of `run_single_builtin_command`: the two `dup`, those of
`setup_redirection` and `dup2_stdio`, and the two `dup2` at the end. -/
structure BuiltinAnswers where
  backUpStdinFails : Bool
  backUpStdoutFails : Bool
  redirecting : ChildAnswers
  restoreStdinFails : Bool
  restoreStdoutFails : Bool

namespace Holder

def onFds {α : Type} (f : Plumbing.Table → α × Plumbing.Table) : HolderM α :=
  modifyGet fun h => ((f h.fds).1, { h with fds := (f h.fds).2 })

/-- `stdinFd` is the read end that the command before the `k`-th has left to it. -/
def startFrom (r : Ref) (spawn : ℕ → Spawn) : ℕ → Option ℕ → List Command → HolderM Bool
  | _, _, [] => return true
  | k, stdinFd, _ :: commands => do
    match pipeToNext (commands ≠ []) (spawn k).pipeFails k (← get).fds with
    | none => do
      endGroup (spawn k).told (← (deref r : ShellM Job)).pgid
      freeJob (some r)
      return false
    | some (pipefd, table) => do
      onFds fun _ => ((), table)
      match (spawn k).fork with
      | none => throw (.exited 1)
      | some pid => do
        modifyJob r (·.startProcess pid)
        onFds fun table => ((), if k ≠ 0 then closeFd table stdinFd else table)
        onFds fun table => ((), closeFd table (pipefd.map Prod.snd))
        startFrom r spawn (k + 1) (pipefd.map Prod.fst) commands

def runPipeline (pipeline : Pipeline) (a : Answers) : HolderM ℤ := do
  let r ← defaultJob
  if pipeline.isInBackground then modifyJob r fun job => { job with state := .background }
  else setForegroundJob r
  if ← startFrom r a.spawn 0 none pipeline.commands then handleJob r a.wakes
  else return 1

def setupRedirection (command : CommandLine.Command) (a : ChildAnswers) (process : ProcessFds)
    (table : Plumbing.Table) : ℤ × ProcessFds × Plumbing.Table :=
  match redirect a.openStdinFails (stdinFile command) process.stdinFd table with
  | .error status => (status, process, table)
  | .ok (stdinFd, table) =>
    match redirect a.openStdoutFails (stdoutFile command) process.stdoutFd table with
    | .error status => (status, ⟨stdinFd, process.stdoutFd⟩, table)
    | .ok (stdoutFd, table) => (0, ⟨stdinFd, stdoutFd⟩, table)

def dup2Stdio (a : ChildAnswers) (process : ProcessFds) (table : Plumbing.Table) :
    ℤ × Plumbing.Table :=
  match dupOnto a.dupStdinFails 0 process.stdinFd table with
  | .error status => (status, table)
  | .ok table =>
    match dupOnto a.dupStdoutFails 1 process.stdoutFd table with
    | .error status => (status, table)
    | .ok table => (0, table)

/-- `setup_redirection` and, if it has succeeded, `dup2_stdio` for a process without descriptors. -/
def redirectStdio (command : CommandLine.Command) (a : ChildAnswers) (table : Plumbing.Table) :
    ℤ × Plumbing.Table :=
  match setupRedirection command a ⟨none, none⟩ table with
  | (status, process, table) => if status = 0 then dup2Stdio a process table else (status, table)

/-- `dup`; `none` is `-1`. -/
def dup (fails : Bool) (fd : ℕ) (table : Plumbing.Table) : Option ℕ × Plumbing.Table :=
  match table.get fd with
  | none => (none, table)
  | some file => if fails then (none, table) else ((table.openAt file).1, (table.openAt file).2)

def dup2 (fails : Bool) (oldfd newfd : ℕ) (table : Plumbing.Table) : Bool × Plumbing.Table :=
  match table.dup2 oldfd newfd with
  | none => (true, table)
  | some new => if fails then (true, table) else (false, new)

/-- The part of `run_single_builtin_command` before `cleanup`. -/
def runRedirected (command : CommandLine.Command) (name : Bytes) (operands : List Bytes)
    (lastStatus : ℤ) (a : Answers) (b : BuiltinAnswers) :
    Option ℕ → Option ℕ → HolderM ℤ
  | some stdinBackup, some stdoutBackup => do
    let status ← onFds (redirectStdio command b.redirecting)
    let status ← if status = 0 then runBuiltinCommand name operands lastStatus a else pure status
    let stdinFailed ← onFds (dup2 b.restoreStdinFails stdinBackup 0)
    let stdoutFailed ← onFds (dup2 b.restoreStdoutFails stdoutBackup 1)
    return if stdinFailed || stdoutFailed then 1 else status
  | _, _ => return 1

def runSingleBuiltinCommand (command : CommandLine.Command) (lastStatus : ℤ) (a : Answers)
    (b : BuiltinAnswers) : HolderM ℤ := do
  match command.args with
  | [] => (fault .nullPointer : ShellM ℤ)
  | name :: operands => do
    let empty ← isJobTableEmpty
    if name = ascii "exit" ∧ empty = false then return 1
    else
      let stdinBackup ← onFds (dup b.backUpStdinFails 0)
      let stdoutBackup ← onFds (dup b.backUpStdoutFails 1)
      let r ← defaultJob
      setForegroundJob r
      let status ← runRedirected command name operands lastStatus a b stdinBackup stdoutBackup
      onFds fun table => ((), closeFd table stdinBackup)
      onFds fun table => ((), closeFd table stdoutBackup)
      if (← slot 0) = some r then removeForegroundJob true
      return status

section Erasing

variable {α β : Type} {m : ShellM α} {f : Plumbing.Table → β × Plumbing.Table}

lemma erases_lift (m : ShellM α) : inHolder.Erases (liftM m : HolderM α) m := .run m

lemma erases_lift_bind {g' : α → HolderM β} {g : α → ShellM β}
    (h : ∀ a, inHolder.Erases (g' a) (g a)) : inHolder.Erases (liftM m >>= g') (m >>= g) :=
  .run_bind h

lemma ends_onFds {Q : β → Holder → Prop} {E : Stop → Holder → Prop} {h : Holder} :
    Ends (onFds f) Q E h ↔ Q (f h.fds).1 { h with fds := (f h.fds).2 } := Iff.rfl

lemma erases_onFds_bind {g : β → HolderM α} (h : ∀ b, inHolder.Erases (g b) m) :
    inHolder.Erases (onFds f >>= g) m := by
  intro t
  rw [ends_bind, ends_onFds]
  exact h _ { t with fds := (f t.fds).2 }

lemma pipeToNext_eq_none {hasNext fails : Bool} {k : ℕ} {table : Plumbing.Table} :
    pipeToNext hasNext fails k table = none ↔ hasNext = true ∧ fails = true := by
  rw [pipeToNext]
  cases hasNext <;> cases fails <;> simp

lemma erases_startFrom (r : Ref) (spawn : ℕ → Spawn) (k : ℕ) (stdinFd : Option ℕ)
    (commands : List Command) :
    inHolder.Erases (startFrom r spawn k stdinFd commands) (Shell.startFrom r spawn k commands) := by
  induction commands generalizing k stdinFd with
  | nil => exact .pure true
  | cons command commands ih =>
    intro h
    rw [startFrom, ends_bind, ends_get, Shell.startFrom]
    cases hpipe : pipeToNext (commands ≠ []) (spawn k).pipeFails k h.fds with
    | none =>
      have hfails := pipeToNext_eq_none.mp hpipe
      rw [decide_eq_true_eq] at hfails
      rw [if_pos hfails]
      apply erases_lift_bind
      intro job
      apply erases_lift_bind
      intro _
      apply erases_lift_bind
      exact fun _ => .pure false
    | some next =>
      have hworks : ¬ (commands ≠ [] ∧ (spawn k).pipeFails = true) := by
        intro hfails
        rw [pipeToNext_eq_none.mpr ⟨decide_eq_true hfails.1, hfails.2⟩] at hpipe
        cases hpipe
      obtain ⟨pipefd, table⟩ := next
      rw [if_neg hworks]
      apply erases_onFds_bind
      intro _
      cases (spawn k).fork with
      | none => exact .throw _
      | some pid =>
        apply erases_lift_bind
        intro _
        apply erases_onFds_bind
        intro _
        apply erases_onFds_bind
        exact fun _ => ih (k + 1) (pipefd.map Prod.fst)

theorem erases_runPipeline (pipeline : Pipeline) (a : Answers) :
    inHolder.Erases (runPipeline pipeline a) (Shell.runPipeline pipeline a) := by
  have hrun : ∀ r, inHolder.Erases
      (do
        if ← startFrom r a.spawn 0 none pipeline.commands then handleJob r a.wakes
        else return 1)
      (do
        if ← Shell.startFrom r a.spawn 0 pipeline.commands then handleJob r a.wakes
        else return 1) := by
    intro r
    apply Part.Erases.bind (erases_startFrom r a.spawn 0 none pipeline.commands)
    exact fun started => Part.Erases.ite (erases_lift _) (.pure 1)
  apply erases_lift_bind
  intro r
  apply Part.Erases.ite
  · apply erases_lift_bind
    exact fun _ => hrun r
  · apply erases_lift_bind
    exact fun _ => hrun r

def ErasesFrom (table : Plumbing.Table) (m' : HolderM α) (m : ShellM α) : Prop :=
  ∀ s, Ends m' (fun a h' => m s = .ok a h'.shell) (fun e h' => m s = .error e h'.shell) ⟨s, table⟩

variable {table : Plumbing.Table} {g' : α → HolderM β} {g : α → ShellM β} {m' : HolderM α}

lemma ends_lift_bind {Q : β → Holder → Prop} {E : Stop → Holder → Prop} {h : Holder} :
    Ends (liftM m >>= g') Q E h ↔
      Ends m (fun a s => Ends (g' a) Q E { h with shell := s }) (fun e s => E e { h with shell := s })
        h.shell :=
  ends_run_bind

lemma ErasesFrom.lift_bind (h : ∀ a, ErasesFrom table (g' a) (g a)) :
    ErasesFrom table (liftM m >>= g') (m >>= g) := by
  intro s
  have hrun : (m >>= g) s = EStateM.bind m g s := rfl
  rw [ends_lift_bind, hrun, Ends]
  cases hm : m s with
  | ok a s' =>
    simp only [EStateM.bind, hm]
    exact h a s'
  | error e s' => simp only [EStateM.bind, hm]

lemma ErasesFrom.onFds_bind {k : β → HolderM α} (h : ErasesFrom (f table).2 (k (f table).1) m) :
    ErasesFrom table (onFds f >>= k) m := by
  intro s
  rw [ends_bind, ends_onFds]
  exact h s

lemma ErasesFrom.bind (hm : ErasesFrom table m' m) (hg : ∀ a, inHolder.Erases (g' a) (g a)) :
    ErasesFrom table (m' >>= g') (m >>= g) := by
  intro s
  have hrun : (m >>= g) s = EStateM.bind m g s := rfl
  rw [ends_bind, hrun]
  refine (hm s).mono (fun a h' ha => ?_) (fun e h' he => ?_)
  · simp only [EStateM.bind, ha]
    exact hg a h'
  · simp only [EStateM.bind, he]

lemma erases_runRedirected (command : CommandLine.Command) (name : Bytes) (operands : List Bytes)
    (lastStatus : ℤ) (a : Answers) (b : BuiltinAnswers) (table : Plumbing.Table)
    (stdinBackup stdoutBackup : Option ℕ) :
    ∃ dupFails redirection restoreFails, ErasesFrom table
      (runRedirected command name operands lastStatus a b stdinBackup stdoutBackup)
      (Shell.runRedirected name operands lastStatus { a with
        dupFails := dupFails, redirection := redirection, restoreFails := restoreFails }) := by
  have hfailed : ErasesFrom table (return 1) (Shell.runRedirected name operands lastStatus
      { a with dupFails := true }) := fun s => rfl
  cases stdinBackup with
  | none => exact ⟨true, a.redirection, a.restoreFails, hfailed⟩
  | some i =>
    cases stdoutBackup with
    | none => exact ⟨true, a.redirection, a.restoreFails, hfailed⟩
    | some o =>
      let redirected := redirectStdio command b.redirecting table
      let restored := dup2 b.restoreStdinFails i 0 redirected.2
      let failed := restored.1 || (dup2 b.restoreStdoutFails o 1 restored.2).1
      have hlast : ∀ status : ℤ, ErasesFrom redirected.2
          (do
            let stdinFailed ← onFds (dup2 b.restoreStdinFails i 0)
            let stdoutFailed ← onFds (dup2 b.restoreStdoutFails o 1)
            return if stdinFailed || stdoutFailed then 1 else status)
          (if failed then return 1 else return status) := by
        intro status
        apply ErasesFrom.onFds_bind
        apply ErasesFrom.onFds_bind
        change ErasesFrom _ (return if failed then 1 else status) _
        cases failed with
        | false => exact fun s => rfl
        | true => exact fun s => rfl
      refine ⟨false, redirected.1, failed, ?_⟩
      rw [runRedirected, Shell.runRedirected, if_neg Bool.false_ne_true]
      apply ErasesFrom.onFds_bind
      by_cases h0 : redirected.1 = 0
      · rw [if_pos h0, if_neg (not_not.mpr h0)]
        apply ErasesFrom.lift_bind
        exact hlast
      · rw [if_neg h0, if_pos h0, pure_bind]
        exact hlast redirected.1

theorem erases_runSingleBuiltinCommand (command : CommandLine.Command) (c : Command)
    (hc : c.args = command.args) (lastStatus : ℤ) (a : Answers) (b : BuiltinAnswers)
    (table : Plumbing.Table) :
    ∃ dupFails redirection restoreFails, ErasesFrom table
      (runSingleBuiltinCommand command lastStatus a b)
      (Shell.runSingleBuiltinCommand c lastStatus { a with
        dupFails := dupFails, redirection := redirection, restoreFails := restoreFails }) := by
  rw [runSingleBuiltinCommand]
  simp only [Shell.runSingleBuiltinCommand, hc]
  cases command.args with
  | nil => exact ⟨true, 0, true, fun s => rfl⟩
  | cons name operands =>
    let stdinBackup := dup b.backUpStdinFails 0 table
    let stdoutBackup := dup b.backUpStdoutFails 1 stdinBackup.2
    obtain ⟨dupFails, redirection, restoreFails, hrun⟩ := erases_runRedirected command name operands
      lastStatus a b stdoutBackup.2 stdinBackup.1 stdoutBackup.1
    refine ⟨dupFails, redirection, restoreFails, ?_⟩
    apply ErasesFrom.lift_bind
    intro empty
    by_cases hexit : name = ascii "exit" ∧ empty = false
    · rw [if_pos hexit, if_pos hexit]
      exact fun s => rfl
    · rw [if_neg hexit, if_neg hexit]
      apply ErasesFrom.onFds_bind
      apply ErasesFrom.onFds_bind
      apply ErasesFrom.lift_bind
      intro r
      apply ErasesFrom.lift_bind
      intro _
      apply ErasesFrom.bind hrun
      intro status
      apply erases_onFds_bind
      intro _
      apply erases_onFds_bind
      intro _
      apply erases_lift_bind
      intro front
      apply Part.Erases.ite
      · apply erases_lift_bind
        exact fun _ => .pure status
      · exact .pure status

end Erasing

end Holder

end SystemsLab.Shell
