import SystemsLab.CommandLine.Parser
import SystemsLab.Shell.Interpret
import SystemsLab.Tables.FdTable

/-! The descriptors of a pipeline: `setup_pipe`, `setup_redirection`, `dup2_stdio` and the loop of
`run_pipeline` in `pa2.c`. -/

namespace SystemsLab.Shell.Plumbing

open CLib Tables CommandLine

inductive Side
  | read
  | write
deriving DecidableEq

/-- The flags of `open`: `O_RDONLY`, or `O_WRONLY | O_CREAT` with `O_TRUNC` or `O_APPEND`. -/
inductive OpenFlags
  | rdonly
  | trunc
  | append
deriving DecidableEq

/-- What a descriptor refers to: something that was open before the pipeline, a file, or an end of
the `k`-th pipe of the pipeline. -/
inductive OpenFile
  | inherited (id : ℕ)
  | named (file : Bytes) (flags : OpenFlags)
  | pipe (k : ℕ) (side : Side)
deriving DecidableEq

abbrev Table := FdTable OpenFile

/-- `stdin_fd` and `stdout_fd` of a process; `none` is `-1`. -/
structure ProcessFds where
  stdinFd : Option ℕ
  stdoutFd : Option ℕ

/-- What the kernel answers to the calls of a child. -/
structure ChildAnswers where
  openStdinFails : Bool
  openStdoutFails : Bool
  dupStdinFails : Bool
  dupStdoutFails : Bool

/-- `close` of a descriptor that may be `-1`. -/
def closeFd (table : Table) : Option ℕ → Table
  | none => table
  | some fd => table.close fd

/-- One half of `setup_redirection`: the status `1` is an error. -/
def redirect (fails : Bool) (target : Option OpenFile) (fd : Option ℕ) (table : Table) :
    Except ℤ (Option ℕ × Table) :=
  match target with
  | none => .ok (fd, table)
  | some file =>
    if fails then .error 1
    else
      let (new, table) := table.openAt file
      .ok (some new, closeFd table fd)

def stdinFile (command : CommandLine.Command) : Option OpenFile :=
  command.stdin.map (.named · .rdonly)

def stdoutFile (command : CommandLine.Command) : Option OpenFile :=
  command.stdout.map (.named · (if command.appendStdout then .append else .trunc))

def setupRedirection (command : CommandLine.Command) (a : ChildAnswers) (process : ProcessFds)
    (table : Table) : Except ℤ (ProcessFds × Table) := do
  let (stdinFd, table) ← redirect a.openStdinFails (stdinFile command) process.stdinFd table
  let (stdoutFd, table) ← redirect a.openStdoutFails (stdoutFile command) process.stdoutFd table
  return (⟨stdinFd, stdoutFd⟩, table)

/-- One half of `dup2_stdio`. -/
def dupOnto (fails : Bool) (target : ℕ) (fd : Option ℕ) (table : Table) : Except ℤ Table :=
  match fd with
  | none => .ok table
  | some fd =>
    if fails then .error 1
    else
      match table.dup2 fd target with
      | none => .error 1
      | some table => .ok (table.close fd)

def dup2Stdio (a : ChildAnswers) (process : ProcessFds) (table : Table) : Except ℤ Table := do
  let table ← dupOnto a.dupStdinFails 0 process.stdinFd table
  dupOnto a.dupStdoutFails 1 process.stdoutFd table

/-- The child of `run_pipeline` between `fork` and `run_command`: its table then, or the status that
it exits with before. -/
def runChild (command : CommandLine.Command) (a : ChildAnswers) (process : ProcessFds)
    (nextStdinFd : Option ℕ) (table : Table) : Except ℤ Table := do
  let table := closeFd table nextStdinFd
  let (process, table) ← setupRedirection command a process table
  dup2Stdio a process table

/-- `setup_pipe` for the `k`-th pipe: `pipefd` and the new table. -/
def setupPipe (k : ℕ) (table : Table) : (ℕ × ℕ) × Table :=
  let (readEnd, table) := table.openAt (.pipe k .read)
  let (writeEnd, table) := table.openAt (.pipe k .write)
  ((readEnd, writeEnd), table)

/-- The pipe of the `k`-th command if it has a next command; `none` if `pipe` fails. -/
def pipeToNext (hasNext fails : Bool) (k : ℕ) (table : Table) : Option (Option (ℕ × ℕ) × Table) :=
  if hasNext then
    if fails then none
    else
      let (pipefd, table) := setupPipe k table
      some (some pipefd, table)
  else some (none, table)

/-- The loop of `run_pipeline` from its `k`-th command on: the table of the shell at its end and,
for each child, what `runChild` says. `none` if a pipe or a process could not be made. -/
def runFrom (spawn : ℕ → Spawn) (a : ℕ → ChildAnswers) (k : ℕ) (stdinFd : Option ℕ)
    (table : Table) : List CommandLine.Command → Option (Table × List (Except ℤ Table))
  | [] => some (table, [])
  | command :: commands => do
    let (pipefd, table) ← pipeToNext (commands ≠ []) (spawn k).pipeFails k table
    let _pid ← (spawn k).fork
    let child := runChild command (a k) ⟨stdinFd, pipefd.map Prod.snd⟩ (pipefd.map Prod.fst) table
    let table := if k ≠ 0 then closeFd table stdinFd else table
    let table := closeFd table (pipefd.map Prod.snd)
    let (table, children) ← runFrom spawn a (k + 1) (pipefd.map Prod.fst) table commands
    return (table, child :: children)

/-- `run_pipeline` looks at the second command before the loop. -/
def runPipeline (spawn : ℕ → Spawn) (a : ℕ → ChildAnswers) (table : Table)
    (commands : List CommandLine.Command) : Option (Table × List (Except ℤ Table)) :=
  if commands = [] then none else runFrom spawn a 0 none table commands

structure Plumbed (base table : Table) (i o : Option ℕ) (x y : Option OpenFile) : Prop where
  get : ∀ fd, table.get fd = if i = some fd then x else if o = some fd then y else base.get fd
  input : x = none ↔ i = none
  output : y = none ↔ o = none
  inFree : ∀ fd, i = some fd → base.get fd = none
  outFree : ∀ fd, o = some fd → base.get fd = none
  apart : ∀ fd, i = some fd → o ≠ some fd

variable {base table : Table} {i o : Option ℕ} {x y : Option OpenFile} {z : OpenFile} {fd : ℕ}

lemma get_closeFd (table : Table) (i : Option ℕ) (fd : ℕ) :
    (closeFd table i).get fd = if i = some fd then none else table.get fd := by
  cases i with
  | none => rfl
  | some fd' =>
    rw [closeFd, FdTable.close, FdTable.get_set]
    simp only [Option.some.injEq, eq_comm]

namespace Plumbed

lemma refl (base : Table) : Plumbed base base none none none none :=
  ⟨fun _ => rfl, ⟨fun _ => rfl, fun _ => rfl⟩, ⟨fun _ => rfl, fun _ => rfl⟩, nofun, nofun, nofun⟩

lemma swap (h : Plumbed base table i o x y) : Plumbed base table o i y x where
  get fd := by
    rw [h.get fd]
    by_cases hi : i = some fd
    · rw [if_pos hi, if_neg (h.apart fd hi), if_pos hi]
    · rw [if_neg hi, if_neg hi]
  input := h.output
  output := h.input
  inFree := h.outFree
  outFree := h.inFree
  apart fd ho hi := h.apart fd hi ho

lemma of_get_none (h : Plumbed base table i o x y) (hfd : table.get fd = none) :
    i ≠ some fd ∧ o ≠ some fd ∧ base.get fd = none := by
  rw [h.get fd] at hfd
  by_cases hi : i = some fd
  · rw [if_pos hi, h.input] at hfd
    rw [hfd] at hi
    cases hi
  · rw [if_neg hi] at hfd
    by_cases ho : o = some fd
    · rw [if_pos ho, h.output] at hfd
      rw [hfd] at ho
      cases ho
    · rw [if_neg ho] at hfd
      exact ⟨hi, ho, hfd⟩

lemma replace (h : Plumbed base table i o x y) (z : OpenFile) :
    Plumbed base (closeFd (table.openAt z).2 i) (some (table.openAt z).1) o (some z) y := by
  obtain ⟨hi, ho, hbase⟩ := h.of_get_none table.get_lowestFree
  refine ⟨fun fd => ?_, ?_, h.output, ?_, h.outFree, ?_⟩
  · rw [get_closeFd, FdTable.openAt, FdTable.get_set]
    by_cases hfd : fd = table.lowestFree
    · rw [hfd, if_neg hi, if_pos rfl, if_pos rfl]
    · rw [if_neg hfd, if_neg fun he => hfd (Option.some.inj he).symm, h.get fd]
      by_cases hifd : i = some fd
      · rw [if_pos hifd, if_neg (h.apart fd hifd), h.inFree fd hifd]
      · rw [if_neg hifd, if_neg hifd]
  · exact ⟨nofun, nofun⟩
  · rintro fd ⟨⟩
    exact hbase
  · rintro fd ⟨⟩
    exact ho

lemma close (h : Plumbed base table i o x y) : Plumbed base (closeFd table i) none o none y where
  get fd := by
    have hnone : none ≠ some fd := nofun
    rw [get_closeFd, if_neg hnone, h.get fd]
    by_cases hi : i = some fd
    · rw [if_pos hi, if_neg (h.apart fd hi), h.inFree fd hi]
    · rw [if_neg hi, if_neg hi]
  input := ⟨fun _ => rfl, fun _ => rfl⟩
  output := h.output
  inFree := nofun
  outFree := h.outFree
  apart := nofun

end Plumbed

def overlay (base : Table) (fd : ℕ) : Option OpenFile → Table
  | none => base
  | some z => base.set fd (some z)

lemma get_overlay (base : Table) (target : ℕ) (x : Option OpenFile) (fd : ℕ) :
    (overlay base target x).get fd = if fd = target then x.or (base.get fd) else base.get fd := by
  cases x with
  | none => exact (ite_self _).symm
  | some z => rw [overlay, FdTable.get_set, Option.some_or]

lemma redirect_ok (h : Plumbed base table i o x y) (target : Option OpenFile) :
    ∃ i' table', redirect false target i table = .ok (i', table') ∧
      Plumbed base table' i' o (target.or x) y := by
  cases target with
  | none => exact ⟨i, table, rfl, h⟩
  | some z => exact ⟨_, _, rfl, h.replace z⟩

lemma dupOnto_ok (h : Plumbed base table i o x y) {target : ℕ} (htarget : base.get target ≠ none) :
    ∃ table', dupOnto false target i table = .ok table' ∧
      Plumbed (overlay base target x) table' none o none y := by
  cases i with
  | none =>
    obtain rfl := h.input.mpr rfl
    exact ⟨table, rfl, h⟩
  | some fd =>
    cases x with
    | none => cases h.input.mp rfl
    | some z =>
      have hget : table.get fd = some z := by rw [h.get fd, if_pos rfl]
      have hne : fd ≠ target := by
        rintro rfl
        exact htarget (h.inFree fd rfl)
      refine ⟨(table.set target (some z)).close fd, ?_, ?_⟩
      · rw [dupOnto, FdTable.dup2, hget]
        rfl
      · refine ⟨fun q => ?_, ?_, h.output, nofun, fun q hq => ?_, nofun⟩
        · have hnone : none ≠ some q := nofun
          rw [if_neg hnone, FdTable.close, FdTable.get_set, FdTable.get_set, h.get q,
            get_overlay, Option.some_or]
          by_cases hfd : q = fd
          · rw [if_pos hfd, hfd, if_neg (h.apart fd rfl), if_neg hne, h.inFree fd rfl]
          · rw [if_neg hfd, if_neg fun he => hfd (Option.some.inj he).symm]
            by_cases hq : q = target
            · rw [if_pos hq, if_neg, if_pos hq]
              rintro rfl
              exact htarget (hq ▸ h.outFree q rfl)
            · rw [if_neg hq, if_neg hq]
        · exact ⟨fun _ => rfl, fun _ => rfl⟩
        · have hqt : q ≠ target := by
            rintro rfl
            exact htarget (h.outFree q hq)
          rw [get_overlay, if_neg hqt]
          exact h.outFree q hq

def childTable (base : Table) (command : CommandLine.Command) (x y : Option OpenFile) : Table :=
  overlay (overlay base 0 ((stdinFile command).or x)) 1 ((stdoutFile command).or y)

lemma runChild_ok {next : Option ℕ} (h : Plumbed base (closeFd table next) i o x y)
    (h0 : base.get 0 ≠ none) (h1 : base.get 1 ≠ none) (command : CommandLine.Command) :
    ∃ table', runChild command ⟨false, false, false, false⟩ ⟨i, o⟩ next table = .ok table' ∧
      ∀ fd, table'.get fd = (childTable base command x y).get fd := by
  obtain ⟨i₁, t₁, hr₁, h₁⟩ := redirect_ok h (stdinFile command)
  obtain ⟨o₂, t₂, hr₂, h₂⟩ := redirect_ok h₁.swap (stdoutFile command)
  obtain ⟨t₃, hd₃, h₃⟩ := dupOnto_ok h₂.swap h0
  have h1' : (overlay base 0 ((stdinFile command).or x)).get 1 ≠ none := by
    rw [get_overlay, if_neg Nat.one_ne_zero]
    exact h1
  obtain ⟨t₄, hd₄, h₄⟩ := dupOnto_ok h₃.swap h1'
  have hsetup : setupRedirection command ⟨false, false, false, false⟩ ⟨i, o⟩ (closeFd table next) =
      .ok (⟨i₁, o₂⟩, t₂) := by
    simp only [setupRedirection, hr₁, hr₂, bind, Except.bind]
    rfl
  have hdup : dup2Stdio ⟨false, false, false, false⟩ ⟨i₁, o₂⟩ t₂ = .ok t₄ := by
    simp only [dup2Stdio, hd₃, hd₄, bind, Except.bind]
  refine ⟨t₄, ?_, fun fd => ?_⟩
  · simp only [runChild, hsetup, hdup, bind, Except.bind]
  · rw [h₄.get fd]
    rfl

namespace Plumbed

lemma openBase (h : Plumbed base table i o x y) (z : OpenFile) :
    Plumbed (base.set (table.openAt z).1 (some z)) (table.openAt z).2 i o x y := by
  obtain ⟨hi, ho, hbase⟩ := h.of_get_none table.get_lowestFree
  have hfree : ∀ fd, base.get fd = none → fd ≠ table.lowestFree →
      (base.set table.lowestFree (some z)).get fd = none := by
    intro fd hfd hne
    rwa [FdTable.get_set_of_ne hne]
  refine ⟨fun fd => ?_, h.input, h.output, fun fd hfd => ?_, fun fd hfd => ?_, h.apart⟩
  · rw [FdTable.openAt, FdTable.get_set, FdTable.get_set]
    by_cases hfd : fd = table.lowestFree
    · rw [hfd, if_pos rfl, if_neg hi, if_neg ho, if_pos rfl]
    · rw [if_neg hfd, if_neg hfd, h.get fd]
  · apply hfree fd (h.inFree fd hfd)
    rintro rfl
    exact hi hfd
  · apply hfree fd (h.outFree fd hfd)
    rintro rfl
    exact ho hfd

lemma closeBase (h : Plumbed (base.set fd (some z)) table i o x y) (hfd : base.get fd = none) :
    Plumbed base (closeFd table (some fd)) i o x y := by
  have hne : ∀ q, (base.set fd (some z)).get q = none → q ≠ fd := by
    rintro q hq rfl
    rw [FdTable.get_set_self] at hq
    cases hq
  refine ⟨fun q => ?_, h.input, h.output, fun q hq => ?_, fun q hq => ?_, h.apart⟩
  · rw [get_closeFd, h.get q]
    by_cases hq : some fd = some q
    · obtain rfl := Option.some.inj hq
      rw [if_pos hq, if_neg, if_neg, hfd]
      · exact fun ho => hne fd (h.outFree fd ho) rfl
      · exact fun hi => hne fd (h.inFree fd hi) rfl
    · rw [if_neg hq, FdTable.get_set_of_ne fun he => hq (congrArg some he.symm)]
  · have hget := h.inFree q hq
    rwa [FdTable.get_set_of_ne (hne q hget)] at hget
  · have hget := h.outFree q hq
    rwa [FdTable.get_set_of_ne (hne q hget)] at hget

lemma takeBase (h : Plumbed (base.set fd (some z)) table none none none none)
    (hfd : base.get fd = none) : Plumbed base table (some fd) none (some z) none where
  get q := by
    have hnone : none ≠ some q := nofun
    rw [h.get q, if_neg hnone, if_neg hnone, if_neg hnone, FdTable.get_set]
    simp only [Option.some.injEq, eq_comm]
  input := ⟨nofun, nofun⟩
  output := h.output
  inFree q hq := by
    obtain rfl := Option.some.inj hq
    exact hfd
  outFree := nofun
  apart := nofun

lemma setupPipe (h : Plumbed base table i none x none) (k : ℕ) :
    ∃ readEnd writeEnd table', setupPipe k table = ((readEnd, writeEnd), table') ∧
      Plumbed base (closeFd table' (some readEnd)) i (some writeEnd) x (some (.pipe k .write)) ∧
      Plumbed base (closeFd (closeFd table' i) (some writeEnd)) (some readEnd) none
        (some (.pipe k .read)) none := by
  obtain ⟨-, -, hfree⟩ := h.of_get_none table.get_lowestFree
  have h₁ := h.openBase (.pipe k .read)
  have h₂ := (h₁.swap.replace (.pipe k .write)).swap
  exact ⟨_, _, _, rfl, h₂.closeBase hfree, h₂.close.swap.close.takeBase hfree⟩

end Plumbed

def pipeIn (k : ℕ) : Option OpenFile := if k = 0 then none else some (.pipe (k - 1) .read)

def pipeOut (k n : ℕ) : Option OpenFile := if k + 1 < n then some (.pipe k .write) else none

structure Succeeds (spawn : ℕ → Spawn) (a : ℕ → ChildAnswers) : Prop where
  pipe : ∀ k, (spawn k).pipeFails = false
  fork : ∀ k, (spawn k).fork ≠ none
  child : ∀ k, a k = ⟨false, false, false, false⟩

lemma pipeToNext_ok {n k : ℕ} {hasNext : Bool} (hnext : hasNext = true ↔ k + 1 < n)
    (h : Plumbed base table i none x none) :
    ∃ pipefd table', pipeToNext hasNext false k table = some (pipefd, table') ∧
      Plumbed base (closeFd table' (pipefd.map Prod.fst)) i (pipefd.map Prod.snd) x
        (pipeOut k n) ∧
      (¬ k + 1 < n → pipefd.map Prod.fst = none) ∧
      ∃ x', (k + 1 < n → x' = pipeIn (k + 1)) ∧
        Plumbed base (closeFd (closeFd table' i) (pipefd.map Prod.snd)) (pipefd.map Prod.fst) none
          x' none := by
  cases hasNext with
  | false =>
    have hlast : ¬ k + 1 < n := fun hlt => Bool.false_ne_true (hnext.mpr hlt)
    rw [pipeOut, if_neg hlast]
    exact ⟨none, table, rfl, h, fun _ => rfl, none, fun hlt => absurd hlt hlast, h.close⟩
  | true =>
    have hlt : k + 1 < n := hnext.mp rfl
    obtain ⟨readEnd, writeEnd, table', hpipe, hchild, hshell⟩ := h.setupPipe k
    rw [pipeOut, if_pos hlt]
    refine ⟨some (readEnd, writeEnd), table', ?_, hchild, fun hn => absurd hlt hn, _, fun _ => ?_,
      hshell⟩
    · simp only [pipeToNext, hpipe]
      rfl
    · exact (if_neg (Nat.succ_ne_zero k)).symm

lemma runFrom_ok {spawn : ℕ → Spawn} {a : ℕ → ChildAnswers} (hs : Succeeds spawn a) {k n : ℕ}
    {commands : List CommandLine.Command} (hn : k + commands.length = n)
    (h : Plumbed base table i none x none) (hx : commands ≠ [] → x = pipeIn k)
    (hi : commands = [] → i = none) (h0 : base.get 0 ≠ none) (h1 : base.get 1 ≠ none) :
    ∃ table' children, runFrom spawn a k i table commands = some (table', children) ∧
      (∀ fd, table'.get fd = base.get fd) ∧ children.length = commands.length ∧
      ∀ j command, commands[j]? = some command → ∃ t, children[j]? = some (.ok t) ∧
        ∀ fd, t.get fd = (childTable base command (pipeIn (k + j)) (pipeOut (k + j) n)).get fd := by
  induction commands generalizing k i x table with
  | nil =>
    refine ⟨table, [], rfl, fun fd => ?_, rfl, nofun⟩
    rw [h.get fd, hi rfl]
    rfl
  | cons command commands ih =>
    have hnext : k + 1 + commands.length = n := by
      rw [List.length_cons] at hn
      omega
    obtain rfl := hx (List.cons_ne_nil _ _)
    have hne : commands ≠ [] ↔ k + 1 < n := by
      rw [← List.length_pos_iff]
      omega
    have hnil : commands = [] ↔ ¬ k + 1 < n := by rw [← hne, not_not]
    obtain ⟨pipefd, t₁, hpipe, hchild, hlast, x', hx', hshell⟩ :=
      pipeToNext_ok (decide_eq_true_iff.trans hne) h
    obtain ⟨t₂, hrun, hget⟩ := runChild_ok hchild h0 h1 command
    obtain ⟨table', children, hrest, hsame, hlength, hchildren⟩ :=
      ih hnext hshell (fun he => hx' (hne.mp he)) (fun he => hlast (hnil.mp he))
    obtain ⟨pid, hpid⟩ := Option.ne_none_iff_exists'.mp (hs.fork k)
    have hclose : (if k ≠ 0 then closeFd t₁ i else t₁) = closeFd t₁ i := by
      split_ifs with hk
      · rfl
      · have hinput : pipeIn k = none := if_pos (not_not.mp hk)
        rw [h.input.mp hinput]
        rfl
    refine ⟨table', .ok t₂ :: children, ?_, hsame, ?_, ?_⟩
    · simp only [runFrom, hs.pipe, hs.child, hpipe, hpid, hrun, hclose, hrest, Option.bind_eq_bind,
        Option.bind_some]
      rfl
    · rw [List.length_cons, List.length_cons, hlength]
    · intro j c hj
      cases j with
      | zero =>
        obtain rfl := Option.some.inj hj
        exact ⟨t₂, rfl, hget⟩
      | succ j =>
        obtain ⟨t, ht, hg⟩ := hchildren j c hj
        refine ⟨t, ht, fun fd => ?_⟩
        rw [hg fd, Nat.add_right_comm, Nat.add_assoc]

def inherit (before : FdTable ℕ) : Table := before.map .inherited

lemma inherit_ne_pipe (before : FdTable ℕ) (fd p : ℕ) (side : Side) :
    (inherit before).get fd ≠ some (.pipe p side) := by
  rw [inherit, FdTable.get_map]
  cases before.get fd <;> exact nofun

lemma get_childTable (base : Table) (command : CommandLine.Command) (x y : Option OpenFile)
    (fd : ℕ) :
    (childTable base command x y).get fd =
      if fd = 1 then ((stdoutFile command).or y).or (base.get 1)
      else if fd = 0 then ((stdinFile command).or x).or (base.get 0)
      else base.get fd := by
  rw [childTable, get_overlay, get_overlay]
  by_cases h1 : fd = 1
  · rw [if_pos h1, if_pos h1, h1, if_neg Nat.one_ne_zero]
  · rw [if_neg h1, if_neg h1]
    by_cases h0 : fd = 0
    · rw [if_pos h0, if_pos h0, h0]
    · rw [if_neg h0, if_neg h0]

lemma stdin_eq_pipe {z : Option OpenFile} {p : ℕ} {side : Side} (hz : z ≠ some (.pipe p side))
    (command : CommandLine.Command) (k : ℕ) :
    ((stdinFile command).or (pipeIn k)).or z = some (.pipe p side) ↔
      side = .read ∧ command.stdin = none ∧ p + 1 = k := by
  rw [stdinFile]
  cases hfile : command.stdin with
  | some file =>
    constructor
    · exact nofun
    · rintro ⟨-, hnone, -⟩
      cases hnone
  | none =>
    rw [Option.map_none, Option.none_or, pipeIn]
    by_cases hk : k = 0
    · rw [if_pos hk, Option.none_or]
      constructor
      · exact fun h => absurd h hz
      · rintro ⟨-, -, hp⟩
        omega
    · rw [if_neg hk, Option.some_or, Option.some.injEq, OpenFile.pipe.injEq]
      constructor
      · rintro ⟨rfl, rfl⟩
        exact ⟨rfl, rfl, by omega⟩
      · rintro ⟨rfl, -, hp⟩
        exact ⟨by omega, rfl⟩

lemma stdout_eq_pipe {z : Option OpenFile} {p : ℕ} {side : Side} (hz : z ≠ some (.pipe p side))
    (command : CommandLine.Command) (k n : ℕ) :
    ((stdoutFile command).or (pipeOut k n)).or z = some (.pipe p side) ↔
      side = .write ∧ command.stdout = none ∧ p = k ∧ k + 1 < n := by
  rw [stdoutFile]
  cases hfile : command.stdout with
  | some file =>
    constructor
    · exact nofun
    · rintro ⟨-, hnone, -⟩
      cases hnone
  | none =>
    rw [Option.map_none, Option.none_or, pipeOut]
    by_cases hk : k + 1 < n
    · rw [if_pos hk, Option.some_or, Option.some.injEq, OpenFile.pipe.injEq]
      constructor
      · rintro ⟨rfl, rfl⟩
        exact ⟨rfl, rfl, rfl, hk⟩
      · rintro ⟨rfl, -, rfl, -⟩
        exact ⟨rfl, rfl⟩
    · rw [if_neg hk, Option.none_or]
      constructor
      · exact fun h => absurd h hz
      · exact fun h => absurd h.2.2.2 hk

lemma childTable_eq_pipe (before : FdTable ℕ) (command : CommandLine.Command) (k n fd p : ℕ)
    (side : Side) :
    (childTable (inherit before) command (pipeIn k) (pipeOut k n)).get fd = some (.pipe p side) ↔
      (fd = 0 ∧ side = .read ∧ command.stdin = none ∧ p + 1 = k) ∨
        (fd = 1 ∧ side = .write ∧ command.stdout = none ∧ p = k ∧ k + 1 < n) := by
  have hbase := fun fd => inherit_ne_pipe before fd p side
  rw [get_childTable]
  by_cases h1 : fd = 1
  · subst h1
    rw [if_pos rfl, stdout_eq_pipe (hbase 1)]
    constructor
    · exact fun h => Or.inr ⟨rfl, h⟩
    · rintro (⟨hfd, -⟩ | ⟨-, h⟩)
      · exact absurd hfd Nat.one_ne_zero
      · exact h
  · rw [if_neg h1]
    by_cases h0 : fd = 0
    · subst h0
      rw [if_pos rfl, stdin_eq_pipe (hbase 0)]
      constructor
      · exact fun h => Or.inl ⟨rfl, h⟩
      · rintro (⟨-, h⟩ | ⟨hfd, -⟩)
        · exact h
        · exact absurd hfd h1
    · rw [if_neg h0]
      constructor
      · exact fun h => absurd h (hbase fd)
      · rintro (⟨hfd, -⟩ | ⟨hfd, -⟩)
        · exact absurd hfd h0
        · exact absurd hfd h1

theorem pipeline_descriptors (spawn : ℕ → Spawn) (a : ℕ → ChildAnswers) (hs : Succeeds spawn a)
    (before : FdTable ℕ) (hopen : ∀ fd ≤ 2, before.get fd ≠ none)
    (commands : List CommandLine.Command) (hne : commands ≠ []) :
    ∃ (shell : Table) (children : List (Except ℤ Table)),
      runPipeline spawn a (inherit before) commands = some (shell, children) ∧
      children.length = commands.length ∧
      (∀ k command, commands[k]? = some command → ∃ table, children[k]? = some (.ok table) ∧
        (∀ fd p side, table.get fd = some (.pipe p side) ↔
          (fd = 0 ∧ side = .read ∧ command.stdin = none ∧ p + 1 = k) ∨
            (fd = 1 ∧ side = .write ∧ command.stdout = none ∧ p = k ∧ k + 1 < commands.length)) ∧
        (∀ file, command.stdin = some file → table.get 0 = some (.named file .rdonly)) ∧
        ∀ file, command.stdout = some file →
          table.get 1 = some (.named file (if command.appendStdout then .append else .trunc))) ∧
      (∀ fd p side, shell.get fd ≠ some (.pipe p side)) ∧
      ∀ (k : ℕ) (reader : Table) fd p, children[k]? = some (.ok reader) →
        reader.get fd = some (.pipe p .read) →
          ∀ (j : ℕ) (writer : Table) fd', children[j]? = some (.ok writer) →
            writer.get fd' = some (.pipe p .write) → j < k := by
  have hbase : ∀ fd ≤ 2, (inherit before).get fd ≠ none := by
    intro fd hfd hnone
    rw [inherit, FdTable.get_map, Option.map_eq_none_iff] at hnone
    exact hopen fd hfd hnone
  obtain ⟨shell, children, hrun, hshell, hlength, hchildren⟩ :=
    runFrom_ok hs (Nat.zero_add _) (.refl _) (fun _ => rfl) (fun _ => rfl) (hbase 0 (by decide))
      (hbase 1 (by decide))
  have hchild : ∀ (k : ℕ) (table : Table), children[k]? = some (.ok table) →
      ∃ command, commands[k]? = some command ∧ ∀ fd, table.get fd =
        (childTable (inherit before) command (pipeIn k) (pipeOut k commands.length)).get fd := by
    intro k table hk
    have hlt : k < commands.length := by
      rw [← hlength]
      exact (List.getElem?_eq_some_iff.mp hk).1
    obtain ⟨t, ht, hget⟩ := hchildren k commands[k] (List.getElem?_eq_getElem hlt)
    rw [hk] at ht
    cases ht
    rw [Nat.zero_add] at hget
    exact ⟨_, List.getElem?_eq_getElem hlt, hget⟩
  refine ⟨shell, children, ?_, hlength, fun k command hk => ?_, fun fd p side => ?_, ?_⟩
  · rw [runPipeline, if_neg hne, hrun]
  · obtain ⟨table, htable, hget⟩ := hchildren k command hk
    rw [Nat.zero_add] at hget
    refine ⟨table, htable, fun fd p side => ?_, fun file hfile => ?_, fun file hfile => ?_⟩
    · rw [hget fd]
      exact childTable_eq_pipe before command k _ fd p side
    · rw [hget 0, get_childTable, if_neg Nat.zero_ne_one, if_pos rfl, stdinFile, hfile]
      rfl
    · rw [hget 1, get_childTable, if_pos rfl, stdoutFile, hfile]
      rfl
  · rw [hshell fd]
    exact inherit_ne_pipe before fd p side
  · intro k reader fd p hk hread j writer fd' hj hwrite
    obtain ⟨command, -, hget⟩ := hchild k reader hk
    obtain ⟨command', -, hget'⟩ := hchild j writer hj
    rw [hget fd, childTable_eq_pipe] at hread
    rw [hget' fd', childTable_eq_pipe] at hwrite
    rcases hread with ⟨-, -, -, hp⟩ | ⟨-, hside, -⟩
    · rcases hwrite with ⟨-, hside, -⟩ | ⟨-, -, -, hp', -⟩
      · cases hside
      · omega
    · cases hside

def catCommand : CommandLine.Command := ⟨[ascii "cat"], none, none, false, .other⟩

theorem pipeline_descriptors_cat :
    ∃ (shell : Table) (children : List (Except ℤ Table)),
      runPipeline (fun k => ⟨false, some (k + 1), .obeyed⟩) (fun _ => ⟨false, false, false, false⟩)
        (inherit ⟨[some 0, some 1, some 2]⟩) [catCommand, catCommand] = some (shell, children) ∧
      children.length = 2 := by
  have hs : Succeeds (fun k => ⟨false, some (k + 1), .obeyed⟩) (fun _ => ⟨false, false, false, false⟩) :=
    ⟨fun _ => rfl, fun _ => nofun, fun _ => rfl⟩
  obtain ⟨shell, children, hrun, hlength, -⟩ :=
    pipeline_descriptors _ _ hs ⟨[some 0, some 1, some 2]⟩ (by decide) [catCommand, catCommand]
      (by decide)
  exact ⟨shell, children, hrun, hlength⟩

end SystemsLab.Shell.Plumbing
