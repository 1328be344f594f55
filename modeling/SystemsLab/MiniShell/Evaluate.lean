import SystemsLab.CLib.Numbers
import SystemsLab.MiniShell.ParseArgs
import SystemsLab.Tables.FdTable

/-! `evaluate` and the main loop of the shell of week 7, with the processes that they start. -/

namespace SystemsLab.MiniShell

open CLib Tables

inductive Result
  | success
  | readlineExit
  | parseArgsError
  | evaluateError
deriving DecidableEq

inductive OpenFlags
  | rdonly
  | trunc
  | append
deriving DecidableEq

inductive Handle
  | inherited (id : ℕ)
  | file (path : Bytes) (flags : OpenFlags)
  | pipeRead (id : ℕ)
  | pipeWrite (id : ℕ)
deriving DecidableEq

/-- `errno`: whether it is `ENOENT`, and what `perror` makes of it. -/
structure Errno where
  noEntry : Bool
  text : Bytes

inductive WaitAnswer
  | interrupted
  | failed
  | done
deriving DecidableEq

/-- What the calls of one command answer. `none` is success of `execvp`, `execv` and `open`; the
others are numbered where a command calls them more than once. `reaps` is how many children
`wait_for_all_children` reaps before it ends. -/
structure World where
  execvp : Bytes → Option Errno
  execv : Bytes → Option Errno
  opens : Bytes → OpenFlags → Option Errno
  pipes : Bool
  forks : ℕ → Bool
  dups : ℕ → Bool
  waits : ℕ → List WaitAnswer
  reaps : ℕ
  reason : Bytes

inductive Fate
  | runs (file : Bytes) (argv : List Bytes) (fds : ℕ → Option Handle)
  | exits (status : ℕ) (err : Bytes)

/-- The shell: its descriptors, its children in the order of their start, the numbers of those that
have not been reaped, how many pipes it has made, and what it has written to standard error. -/
structure Session where
  fds : FdTable Handle
  children : List Fate
  unreaped : List ℕ
  pipeCount : ℕ
  err : Bytes
  exitStatus : ℕ

def nl : UInt8 := 10

variable (w : World)

def perror (label : Bytes) : Bytes := label ++ ascii ": " ++ w.reason ++ [nl]

namespace Session

def report (s : Session) (text : Bytes) : Session := { s with err := s.err ++ text }

/-- `fork`, where the child comes to the given end. -/
def start (s : Session) (fate : Fate) : Session :=
  { s with children := s.children ++ [fate], unreaped := s.unreaped ++ [s.children.length] }

def reap (s : Session) (pid : ℕ) : Session := { s with unreaped := s.unreaped.erase pid }

end Session

/-- The loop of `wait_for_pid`: does it succeed? -/
def waitAnswered : List WaitAnswer → Bool
  | .interrupted :: answers => waitAnswered answers
  | .failed :: _ => false
  | _ => true

def waitForPid (answers : List WaitAnswer) (pid : ℕ) (s : Session) : Result × Session :=
  if waitAnswered answers then (.success, s.reap pid)
  else (.evaluateError, s.report (perror w (ascii "waitpid")))

def waitForAllChildren (s : Session) : Session := { s with unreaped := s.unreaped.drop w.reaps }

def parseExitStatus (text : Bytes) : Option ℕ :=
  let r := strtoll text
  if r.rest = text ∨ r.rest ≠ [] then none
  else if r.erange ∨ r.value < 0 ∨ r.value > 255 then some 255
  else some r.value.toNat

def slash : UInt8 := 47

def execProgram (args : List Bytes) (name : Bytes) (fds : ℕ → Option Handle) : Fate :=
  let fails (e : Errno) : Fate :=
    if e.noEntry then .exits 127 (name ++ ascii ": command not found\n")
    else .exits 1 (name ++ ascii ": " ++ e.text ++ [nl])
  match w.execvp name with
  | none => .runs name args fds
  | some e =>
    if slash ∈ name then fails e
    else
      match w.execv (ascii "./" ++ name) with
      | none => .runs (ascii "./" ++ name) args fds
      | some e => fails e

/-- The arguments in an array, up to its null pointer; `none` is a read outside of the array. -/
def argvOf : List (Option Bytes) → Option (List Bytes)
  | [] => none
  | none :: _ => some []
  | some text :: args => (argvOf args).map (text :: ·)

/-- `exec_program` with an array. -/
def execArray (args : List (Option Bytes)) (fds : ℕ → Option Handle) : Option Fate := do
  let argv ← argvOf args
  let name ← argv.head?
  return execProgram w argv name fds

def setCell (args : List (Option Bytes)) (i : ℕ) (cell : Option Bytes) : Option (List (Option Bytes)) :=
  if i < args.length then some (args.set i cell) else none

def syntaxError : Bytes := ascii "syntax error\n"

def handleExitCommand (args : List (Option Bytes)) (s : Session) : Option (Result × Session) := do
  match ← args[1]? with
  | none => return (.readlineExit, waitForAllChildren w { s with exitStatus := 0 })
  | some text =>
    match ← args[2]? with
    | some _ => return (.evaluateError, s.report (ascii "exit: too many arguments\n"))
    | none =>
      match parseExitStatus text with
      | none => return (.evaluateError, s.report (ascii "exit: " ++ text ++ ascii ": invalid integer\n"))
      | some status => return (.readlineExit, waitForAllChildren w { s with exitStatus := status })

def executeExternalCommand (args : List (Option Bytes)) (s : Session) : Option (Result × Session) := do
  if !w.forks 0 then return (.evaluateError, s.report (perror w (ascii "fork")))
  else
    let fate ← execArray w args s.fds.get
    return waitForPid w (w.waits 0) s.children.length (s.start fate)

def redirection (operator : Bytes) : OpenFlags × ℕ :=
  if operator = [less] then (.rdonly, 0)
  else if operator = [greater] then (.trunc, 1)
  else (.append, 1)

/-- The child of `execute_redirection_command`. -/
def redirectedChild (args : List (Option Bytes)) (operatorIndex : ℕ) (file : Bytes) (flags : OpenFlags)
    (dupTarget : ℕ) (fds : FdTable Handle) : Option Fate :=
  match w.opens file flags with
  | some e => some (.exits 1 (file ++ ascii ": " ++ e.text ++ [nl]))
  | none =>
    let (fd, fds) := fds.openAt (.file file flags)
    match if w.dups 0 then fds.dup2 fd dupTarget else none with
    | none => some (.exits 1 (perror w (ascii "dup2")))
    | some fds => do
      let args ← setCell args operatorIndex none
      execArray w args (fds.close fd).get

def executeRedirectionCommand (args : List (Option Bytes)) (operatorIndex : ℕ) (s : Session) :
    Option (Result × Session) := do
  if operatorIndex = 0 then return (.evaluateError, s.report syntaxError)
  else
    match ← args[operatorIndex + 1]? with
    | none => return (.evaluateError, s.report syntaxError)
    | some file =>
      if (← args[operatorIndex + 2]?) ≠ none then return (.evaluateError, s.report syntaxError)
      else
        let operator ← ← args[operatorIndex]?
        let (flags, dupTarget) := redirection operator
        if !w.forks 0 then return (.evaluateError, s.report (perror w (ascii "fork")))
        else
          let fate ← redirectedChild w args operatorIndex file flags dupTarget s.fds
          return waitForPid w (w.waits 0) s.children.length (s.start fate)

/-- The loop that copies the right side of a pipe into `rhs`, and the null pointer behind it. -/
def copyRhs (args : List (Option Bytes)) (i : ℕ) (rhs : List (Option Bytes)) (rhsIndex : ℕ) :
    Option (List (Option Bytes)) :=
  if h : i < args.length then
    match args[i] with
    | none => setCell rhs rhsIndex none
    | some text => do
      let rhs ← setCell rhs rhsIndex (some text)
      copyRhs args (i + 1) rhs (rhsIndex + 1)
  else none
termination_by args.length - i

/-- A child of `execute_pipe_command`: `fd` is the end of the pipe that becomes `target`. -/
def pipedChild (k : ℕ) (args : List (Option Bytes)) (fd target : ℕ) (ends : ℕ × ℕ)
    (fds : FdTable Handle) : Option Fate :=
  match if w.dups k then fds.dup2 fd target else none with
  | none => some (.exits 1 (perror w (ascii "dup2")))
  | some fds => execArray w args ((fds.close ends.1).close ends.2).get

def closeEnds (s : Session) (ends : ℕ × ℕ) : Session :=
  { s with fds := (s.fds.close ends.1).close ends.2 }

/-- `pipe`: its two ends, and the shell with them. -/
def makePipe (s : Session) : (ℕ × ℕ) × Session :=
  let (readEnd, fds) := s.fds.openAt (.pipeRead s.pipeCount)
  let (writeEnd, fds) := fds.openAt (.pipeWrite s.pipeCount)
  ((readEnd, writeEnd), { s with fds := fds, pipeCount := s.pipeCount + 1 })

/-- `garbage` is what is in `rhs` before. -/
def executePipeCommand (garbage args : List (Option Bytes)) (operatorIndex : ℕ) (s : Session) :
    Option (Result × Session) := do
  if operatorIndex = 0 then return (.evaluateError, s.report syntaxError)
  else if (← args[operatorIndex + 1]?) = none then return (.evaluateError, s.report syntaxError)
  else
    let rhs ← copyRhs args (operatorIndex + 1) garbage 0
    let args ← setCell args operatorIndex none
    if !w.pipes then return (.evaluateError, s.report (perror w (ascii "pipe")))
    else
      let (ends, s) := makePipe s
      if !w.forks 0 then
        return (.evaluateError, closeEnds (s.report (perror w (ascii "fork"))) ends)
      else
        let leftPid := s.children.length
        let s := s.start (← pipedChild w 0 args ends.2 1 ends s.fds)
        if !w.forks 1 then
          let s := closeEnds (s.report (perror w (ascii "fork"))) ends
          return (.evaluateError, (waitForPid w (w.waits 0) leftPid s).2)
        else
          let rightPid := s.children.length
          let s := s.start (← pipedChild w 1 rhs ends.1 0 ends s.fds)
          let s := closeEnds s ends
          let (result, s) := waitForPid w (w.waits 0) leftPid s
          if result ≠ .success then return (.evaluateError, (waitForPid w (w.waits 1) rightPid s).2)
          else return waitForPid w (w.waits 1) rightPid s

def isOperatorText (text : Bytes) : Bool :=
  text == [less] || text == [greater] || text == [greater, greater] || text == [bar]

/-- The loop of `find_operator_index`: `-2` is an error here, and `-1` is `none`. -/
def findOperatorFrom (args : List (Option Bytes)) (i : ℕ) (operatorIndex : Option ℕ) :
    Option (Except Bytes (Option ℕ)) :=
  if h : i < args.length then
    match args[i] with
    | none => some (.ok operatorIndex)
    | some text =>
      if isOperatorText text then
        if operatorIndex.isSome then some (.error syntaxError)
        else findOperatorFrom args (i + 1) (some i)
      else findOperatorFrom args (i + 1) operatorIndex
  else none
termination_by args.length - i

def evaluate (garbage args : List (Option Bytes)) (s : Session) : Option (Result × Session) := do
  match ← args[0]? with
  | none => return (.success, s)
  | some name =>
    match ← findOperatorFrom args 0 none with
    | .error text => return (.evaluateError, s.report text)
    | .ok none =>
      if name = ascii "exit" then handleExitCommand w args s else executeExternalCommand w args s
    | .ok (some operatorIndex) =>
      if (← args[operatorIndex]?) = some [bar] then executePipeCommand w garbage args operatorIndex s
      else executeRedirectionCommand w args operatorIndex s

/-- A round of `main` with the line that `readline` returns, if there is one: the memory of `cmd`
ends with a NUL and whatever is behind it, `cells` and `garbage` are what is in `args` and `rhs`. -/
def round (line : Option Bytes) (behind : Bytes) (cells : List Pointer) (garbage : List (Option Bytes))
    (s : Session) : Option (Result × Session) :=
  match line with
  | none => some (.readlineExit, s)
  | some [] => some (.success, s)
  | some command =>
    match parseArgs (command ++ 0 :: behind) cells with
    | .error (.tooManyArguments err) => some (.parseArgsError, s.report err)
    | .error .outOfBounds => none
    | .ok final => evaluate w garbage (final.args.map (Pointer.string final.cmd)) s

end SystemsLab.MiniShell
