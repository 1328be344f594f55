import SystemsLab.MiniShell.Evaluate
import Mathlib.Data.List.TakeWhile

namespace SystemsLab.MiniShell

open CLib Tables

/-- `endOfInput` stands for the end of the input, where there is no line. -/
inductive Meaning
  | endOfInput
  | nothing
  | tooMany
  | syntaxError
  | exit (operands : List Bytes)
  | command (argv : List Bytes)
  | redirect (argv : List Bytes) (operator file : Bytes)
  | pipe (left right : List Bytes)

def redirectMeaning (argv : List Bytes) (operator : Bytes) : List Bytes → Meaning
  | [file] => .redirect argv operator file
  | _ => .syntaxError

def meaning (toks : List Bytes) : Meaning :=
  if maxArgs - 1 < toks.length then .tooMany
  else
    let before := toks.takeWhile (!isOperatorText ·)
    match toks.dropWhile (!isOperatorText ·) with
    | [] =>
      if before = [] then .nothing
      else if before.head? = some (ascii "exit") then .exit before.tail
      else .command before
    | operator :: after =>
      if before = [] ∨ after = [] ∨ after.any isOperatorText then .syntaxError
      else if operator = [bar] then .pipe before after
      else redirectMeaning before operator after

def lineMeaning : Option Bytes → Meaning
  | none => .endOfInput
  | some command => meaning (tokens command)

structure Done where
  result : Result
  err : Bytes
  exitStatus : ℕ
  children : List Fate
  pipeCount : ℕ

namespace Done

variable (done : Done)

def ends (result : Result) (err : Bytes) : Done := { done with result := result, err := done.err ++ err }

def leaves (status : ℕ) : Done := { done with result := .readlineExit, exitStatus := status }

def starts (fate : Fate) : Done := { done with children := done.children ++ [fate] }

end Done

section Meanings

variable (w : World) (fds : ℕ → Option Handle) (done : Done)

def programOf (argv : List Bytes) (fds : ℕ → Option Handle) : Fate :=
  execProgram w argv (argv.headD []) fds

/-- The program of a child after `dup2`, or the exit if that fails. -/
def onto (k : ℕ) (argv : List Bytes) (target : ℕ) (handle : Handle) : Fate :=
  if w.dups k then programOf w argv (Function.update fds target (some handle))
  else .exits 1 (perror w (ascii "dup2"))

def redirected (argv : List Bytes) (operator file : Bytes) : Fate :=
  match w.opens file (redirection operator).1 with
  | some e => .exits 1 (file ++ ascii ": " ++ e.text ++ [nl])
  | none => onto w fds 0 argv (redirection operator).2 (.file file (redirection operator).1)

def waited (k : ℕ) : Done :=
  if waitAnswered (w.waits k) then done.ends .success []
  else done.ends .evaluateError (perror w (ascii "waitpid"))

def single (fate : Fate) : Done :=
  if w.forks 0 then waited w (done.starts fate) 0
  else done.ends .evaluateError (perror w (ascii "fork"))

def exitDone (operands : List Bytes) : Done :=
  match operands with
  | [] => done.leaves 0
  | [text] =>
    match parseExitStatus text with
    | none => done.ends .evaluateError (ascii "exit: " ++ text ++ ascii ": invalid integer\n")
    | some status => done.leaves status
  | _ => done.ends .evaluateError (ascii "exit: too many arguments\n")

def waitedBoth : Done :=
  if (waited w done 0).result = .success then waited w (waited w done 0) 1
  else (waited w (waited w done 0) 1).ends .evaluateError []

def pipeDone (left right : List Bytes) : Done :=
  if !w.pipes then done.ends .evaluateError (perror w (ascii "pipe"))
  else
    let piped := { done with pipeCount := done.pipeCount + 1 }
    if !w.forks 0 then piped.ends .evaluateError (perror w (ascii "fork"))
    else
      let withLeft := piped.starts (onto w fds 0 left 1 (.pipeWrite done.pipeCount))
      if !w.forks 1 then
        (waited w (withLeft.ends .evaluateError (perror w (ascii "fork"))) 0).ends .evaluateError []
      else
        let withRight := withLeft.starts (onto w fds 1 right 0 (.pipeRead done.pipeCount))
        waitedBoth w withRight

def carryOut : Meaning → Done
  | .endOfInput => done.ends .readlineExit []
  | .nothing => done.ends .success []
  | .tooMany => done.ends .parseArgsError (ascii "Error: Too many arguments\n")
  | .syntaxError => done.ends .evaluateError MiniShell.syntaxError
  | .exit operands => exitDone done operands
  | .command argv => single w done (programOf w argv fds)
  | .redirect argv operator file => single w done (redirected w fds argv operator file)
  | .pipe left right => pipeDone w fds done left right

end Meanings

def Session.view (s : Session) (result : Result) : Done :=
  ⟨result, s.err, s.exitStatus, s.children, s.pipeCount⟩

structure Session.Sound (s : Session) : Prop where
  standard : ∀ fd ≤ 2, s.fds.get fd ≠ none
  started : ∀ pid ∈ s.unreaped, pid < s.children.length
  nodup : s.unreaped.Nodup

structure Follows (w : World) (s : Session) (done : Done) (result : Result) (s' : Session) : Prop where
  view_eq : s'.view result = done
  fds_eq : s'.fds.get = s.fds.get
  sound : s'.Sound
  reaped : (∀ k, waitAnswered (w.waits k) = true) → ∀ pid ∈ s'.unreaped, pid ∈ s.unreaped

def Carried (w : World) (s : Session) (done : Done) (outcome : Option (Result × Session)) : Prop :=
  ∃ result s', outcome = some (result, s') ∧ Follows w s done result s'

section Arrays

variable {toks front back : List Bytes} {rest garbage : List (Option Bytes)} {i n : ℕ} {a : Bytes}

def array (toks : List Bytes) (rest : List (Option Bytes)) : List (Option Bytes) :=
  toks.map some ++ none :: rest

lemma argvOf_array (toks : List Bytes) (rest : List (Option Bytes)) :
    argvOf (array toks rest) = some toks := by
  induction toks with
  | nil => rfl
  | cons a toks ih =>
    change (argvOf (array toks rest)).map (a :: ·) = _
    rw [ih]
    rfl

lemma length_array : (array toks rest).length = toks.length + (rest.length + 1) := by
  rw [array, List.length_append, List.length_map, List.length_cons]

lemma getElem_array (h : i ≤ toks.length) : (array toks rest)[i]? = some toks[i]? := by
  rw [array]
  rcases Nat.lt_or_eq_of_le h with hlt | rfl
  · rw [List.getElem?_append_left (by rwa [List.length_map]), List.getElem?_map,
      List.getElem?_eq_getElem hlt]
    rfl
  · rw [List.getElem?_append_right (by rw [List.length_map]), List.length_map, Nat.sub_self,
      List.getElem?_eq_none le_rfl]
    rfl

lemma getElem_front (front back : List Bytes) (rest : List (Option Bytes)) :
    (array (front ++ back) rest)[front.length]? = some back.head? := by
  rw [getElem_array (by rw [List.length_append]; omega), List.getElem?_append_right le_rfl,
    Nat.sub_self, List.head?_eq_getElem?]

lemma setCell_next (toks : List Bytes) (cell new : Option Bytes) (rest : List (Option Bytes)) :
    setCell (toks.map some ++ cell :: rest) toks.length new = some (toks.map some ++ new :: rest) := by
  have hlen : toks.length = (toks.map some).length := (List.length_map some).symm
  rw [setCell, if_pos (by rw [List.length_append, List.length_map, List.length_cons]; omega)]
  conv_lhs => rw [hlen]
  rw [List.set_append_right _ _ le_rfl, Nat.sub_self]
  rfl

lemma setCell_array : setCell (array (front ++ a :: back) rest) front.length none =
    some (array front (back.map some ++ none :: rest)) := by
  have hsplit : array (front ++ a :: back) rest =
      front.map some ++ some a :: (back.map some ++ none :: rest) := by
    rw [array, List.map_append, List.append_assoc, List.map_cons, List.cons_append]
  rw [hsplit, setCell_next]
  rfl

lemma getElem_round (front : List Bytes) (a : Bytes) (back : List Bytes)
    (rest : List (Option Bytes)) :
    ∃ h : front.length < (array (front ++ a :: back) rest).length,
      (array (front ++ a :: back) rest)[front.length] = some a := by
  have hlt : front.length < (array (front ++ a :: back) rest).length := by
    rw [length_array, List.length_append, List.length_cons]
    omega
  refine ⟨hlt, ?_⟩
  have hget := getElem_front front (a :: back) rest
  rw [List.getElem?_eq_getElem hlt] at hget
  exact Option.some.inj hget

lemma getElem_last (toks : List Bytes) (rest : List (Option Bytes)) :
    ∃ h : toks.length < (array toks rest).length, (array toks rest)[toks.length] = none := by
  have hlt : toks.length < (array toks rest).length := by
    rw [length_array]
    omega
  refine ⟨hlt, ?_⟩
  have hget : (array toks rest)[toks.length]? = some toks[toks.length]? := getElem_array le_rfl
  rw [List.getElem?_eq_getElem hlt, List.getElem?_eq_none le_rfl] at hget
  exact Option.some.inj hget

lemma findOperatorFrom_second (front back : List Bytes) (rest : List (Option Bytes)) (k : ℕ) :
    findOperatorFrom (array (front ++ back) rest) front.length (some k) =
      some (if back.any isOperatorText then .error syntaxError else .ok (some k)) := by
  induction back generalizing front with
  | nil =>
    obtain ⟨hlt, hget⟩ := getElem_last front rest
    rw [List.append_nil, findOperatorFrom, dif_pos hlt, hget]
    rfl
  | cons a back ih =>
    obtain ⟨hlt, hget⟩ := getElem_round front a back rest
    rw [findOperatorFrom, dif_pos hlt, hget]
    have hnext := ih (front ++ [a])
    rw [List.append_assoc, List.singleton_append, List.length_append, List.length_singleton] at hnext
    simp only [hnext, Option.isSome_some, if_true]
    by_cases ha : isOperatorText a = true
    · have hany : (a :: back).any isOperatorText = true := by rw [List.any_cons, ha, Bool.true_or]
      rw [if_pos ha, if_pos hany]
    · have hany : (a :: back).any isOperatorText = back.any isOperatorText := by
        rw [List.any_cons, Bool.eq_false_of_not_eq_true ha, Bool.false_or]
      simp only [if_neg ha, hany]

lemma findOperatorFrom_first (front back : List Bytes) (rest : List (Option Bytes)) :
    findOperatorFrom (array (front ++ back) rest) front.length none =
      some (match back.dropWhile (!isOperatorText ·) with
        | [] => .ok none
        | _ :: after =>
          if after.any isOperatorText then .error syntaxError
          else .ok (some (front.length + (back.takeWhile (!isOperatorText ·)).length))) := by
  induction back generalizing front with
  | nil =>
    obtain ⟨hlt, hget⟩ := getElem_last front rest
    rw [List.append_nil, findOperatorFrom, dif_pos hlt, hget]
    rfl
  | cons a back ih =>
    obtain ⟨hlt, hget⟩ := getElem_round front a back rest
    rw [findOperatorFrom, dif_pos hlt, hget]
    have hnext := ih (front ++ [a])
    rw [List.append_assoc, List.singleton_append, List.length_append, List.length_singleton] at hnext
    cases ha : isOperatorText a with
    | false =>
      simp only [ha, Bool.false_eq_true, if_false, hnext, List.dropWhile_cons, List.takeWhile_cons,
        Bool.not_false, if_true, List.length_cons]
      cases back.dropWhile (!isOperatorText ·) with
      | nil => rfl
      | cons operator after =>
        simp only [Nat.add_assoc, Nat.add_comm 1]
    | true =>
      have hsecond := findOperatorFrom_second (front ++ [a]) back rest front.length
      rw [List.append_assoc, List.singleton_append, List.length_append, List.length_singleton]
        at hsecond
      simp only [ha, if_true, Option.isSome_none, Bool.false_eq_true, if_false, hsecond,
        List.dropWhile_cons, List.takeWhile_cons, Bool.not_true, List.length_nil, Nat.add_zero]

lemma copyRhs_array (front back seen : List Bytes) (rest garbage : List (Option Bytes))
    (hroom : back.length < garbage.length) :
    copyRhs (array (front ++ back) rest) front.length (seen.map some ++ garbage) seen.length =
      some (array (seen ++ back) (garbage.drop (back.length + 1))) := by
  induction back generalizing front seen garbage with
  | nil =>
    obtain ⟨hlt, hget⟩ := getElem_last front rest
    obtain ⟨cell, garbage, rfl⟩ := List.exists_cons_of_length_pos hroom
    rw [List.append_nil, copyRhs, dif_pos hlt, hget]
    simp only [setCell_next, List.append_nil, List.length_nil, Nat.zero_add, List.drop_succ_cons,
      List.drop_zero]
    rfl
  | cons a back ih =>
    obtain ⟨hlt, hget⟩ := getElem_round front a back rest
    obtain ⟨cell, garbage, rfl⟩ := List.exists_cons_of_length_pos (Nat.zero_lt_of_lt hroom)
    rw [copyRhs, dif_pos hlt, hget]
    simp only [setCell_next]
    have hnext := ih (front ++ [a]) (seen ++ [a]) garbage (by simpa using hroom)
    simp only [List.append_assoc, List.singleton_append, List.length_append, List.length_singleton,
      List.map_append, List.map_cons, List.map_nil] at hnext
    exact hnext

lemma map_filled {cmd : Bytes} {args : List Pointer} (h : Filled cmd args i toks)
    (hroom : i < args.length) :
    ∃ rest, (args.set i .null).map (Pointer.string cmd) = array toks rest := by
  refine ⟨((args.set i .null).map (Pointer.string cmd)).drop (toks.length + 1), ?_⟩
  conv_lhs => rw [← List.take_append_drop (toks.length + 1) (List.map _ _)]
  rw [← List.map_take, h.strings hroom, List.append_assoc]
  rfl

lemma parseArgs_array (command behind : Bytes) (cells : List Pointer) (hnul : 0 ∉ command)
    (hcells : cells.length = maxArgs) :
    (maxArgs - 1 < (tokens command).length ∧
        parseArgs (command ++ 0 :: behind) cells = .error tooMany) ∨
      ((tokens command).length ≤ maxArgs - 1 ∧ ∃ final rest,
        parseArgs (command ++ 0 :: behind) cells = .ok final ∧
          final.args.map (Pointer.string final.cmd) = array (tokens command) rest) := by
  have hstart : Filled [] cells 0 [] := ⟨hcells, rfl, fun k text hk => by simp at hk⟩
  have hloop := parseFrom_spec behind hstart (by decide) hnul
  have hparse : parseArgs (command ++ 0 :: behind) cells =
      (parseFrom (zip [] command behind cells 0) >>= fun s => s.write .null) := rfl
  rw [hparse]
  cases hresult : parseFrom (zip [] command behind cells 0) with
  | ok s =>
    rw [hresult] at hloop
    cases hloop with
    | @leaves seen' args' i' hfilled hroom =>
      rw [List.nil_append] at hfilled
      have hcell : i' < args'.length := hfilled.length_eq ▸ hroom
      have hwrite : (zip seen' [] behind args' i').write .null =
          .ok (zip seen' [] behind (args'.set i' .null) i') := if_pos hcell
      have hcount := hfilled.count
      obtain ⟨rest, hrest⟩ := map_filled hfilled hcell
      exact Or.inr ⟨by omega, _, rest, hwrite, hrest⟩
  | error failure =>
    rw [hresult] at hloop
    cases hloop with
    | refuses hmany =>
      rw [List.length_nil, maxArgs] at hmany
      exact Or.inl ⟨by rw [maxArgs]; omega, rfl⟩

end Arrays

section Descriptors

variable {t : FdTable Handle} {fds : ℕ → Option Handle} {ends : ℕ × ℕ} {fd target : ℕ}
  {handle : Handle}

lemma get_set_update (t : FdTable Handle) (fd : ℕ) (v : Option Handle) :
    (t.set fd v).get = Function.update t.get fd v := by
  funext fd'
  rw [FdTable.get_set, Function.update_apply]

lemma update_free (h : fds fd = none) : Function.update fds fd none = fds :=
  Function.update_eq_self_iff.mpr h.symm

lemma get_opened (htarget : t.get target ≠ none) :
    (((t.set t.lowestFree (some handle)).set target (some handle)).close t.lowestFree).get =
      Function.update t.get target (some handle) := by
  have hfree := t.get_lowestFree
  have hne : target ≠ t.lowestFree := fun h => htarget (by rw [h, hfree])
  rw [FdTable.close, get_set_update, get_set_update, get_set_update, Function.update_comm hne,
    Function.update_idem, update_free hfree]

structure Piped (fds : ℕ → Option Handle) (pipe : ℕ) (ends : ℕ × ℕ) (t : FdTable Handle) : Prop where
  ne : ends.1 ≠ ends.2
  free_read : fds ends.1 = none
  free_write : fds ends.2 = none
  get_eq : t.get = Function.update (Function.update fds ends.1 (some (.pipeRead pipe))) ends.2
    (some (.pipeWrite pipe))

lemma makePipe_piped (s : Session) : ∃ ends t,
    makePipe s = (ends, { s with fds := t, pipeCount := s.pipeCount + 1 }) ∧
      Piped s.fds.get s.pipeCount ends t := by
  refine ⟨_, _, rfl, ?_⟩
  have hread := s.fds.get_lowestFree
  have hwrite := (s.fds.set s.fds.lowestFree (some (.pipeRead s.pipeCount))).get_lowestFree
  rw [FdTable.get_set] at hwrite
  split_ifs at hwrite with heq
  have hget := get_set_update (s.fds.set s.fds.lowestFree (some (.pipeRead s.pipeCount)))
    (s.fds.set s.fds.lowestFree (some (.pipeRead s.pipeCount))).lowestFree
    (some (.pipeWrite s.pipeCount))
  rw [get_set_update s.fds] at hget
  exact ⟨fun h => heq h.symm, hread, hwrite, hget⟩

namespace Piped

variable {pipe : ℕ}

lemma get_read (h : Piped fds pipe ends t) : t.get ends.1 = some (.pipeRead pipe) := by
  rw [h.get_eq, Function.update_of_ne h.ne, Function.update_self]

lemma get_write (h : Piped fds pipe ends t) : t.get ends.2 = some (.pipeWrite pipe) := by
  rw [h.get_eq, Function.update_self]

lemma get_closed (h : Piped fds pipe ends t) : ((t.close ends.1).close ends.2).get = fds := by
  rw [FdTable.close, get_set_update, FdTable.close, get_set_update, h.get_eq,
    Function.update_comm h.ne.symm, Function.update_idem, Function.update_idem,
    update_free h.free_read, update_free h.free_write]

lemma get_child (h : Piped fds pipe ends t) (htarget : fds target ≠ none) :
    (((t.set target (some handle)).close ends.1).close ends.2).get =
      Function.update fds target (some handle) := by
  have hread : target ≠ ends.1 := fun heq => htarget (by rw [heq, h.free_read])
  have hwrite : target ≠ ends.2 := fun heq => htarget (by rw [heq, h.free_write])
  have hclosed := h.get_closed
  rw [FdTable.close, get_set_update, FdTable.close, get_set_update] at hclosed
  rw [FdTable.close, get_set_update, FdTable.close, get_set_update, get_set_update,
    Function.update_comm hread, Function.update_comm hwrite, hclosed]

end Piped

end Descriptors

section Children

variable {w : World} {fds : ℕ → Option Handle} {argv : List Bytes} {rest : List (Option Bytes)}
  {ends : ℕ × ℕ} {t : FdTable Handle} {k pipe target fd : ℕ} {handle : Handle}
  {operator file : Bytes} {back : List Bytes}

lemma execArray_array (hargv : argv ≠ []) :
    execArray w (array argv rest) fds = some (programOf w argv fds) := by
  obtain ⟨name, argv, rfl⟩ := List.exists_cons_of_ne_nil hargv
  rw [execArray, argvOf_array]
  rfl

lemma pipedChild_eq (w : World) (k : ℕ) (rest : List (Option Bytes)) (hargv : argv ≠ [])
    (hpiped : Piped fds pipe ends t) (hfd : t.get fd = some handle) (htarget : fds target ≠ none) :
    pipedChild w k (array argv rest) fd target ends t = some (onto w fds k argv target handle) := by
  rw [pipedChild, onto]
  cases w.dups k with
  | false => rfl
  | true =>
    rw [if_pos rfl, if_pos rfl, FdTable.dup2, hfd]
    simp only [Option.map_some, hpiped.get_child htarget]
    exact execArray_array hargv

lemma redirectedChild_eq (w : World) (file : Bytes) (back : List Bytes) (rest : List (Option Bytes))
    (hargv : argv ≠ []) (htarget : t.get (redirection operator).2 ≠ none) :
    redirectedChild w (array (argv ++ operator :: back) rest) argv.length file
        (redirection operator).1 (redirection operator).2 t =
      some (redirected w t.get argv operator file) := by
  rw [redirectedChild, redirected]
  cases w.opens file (redirection operator).1 with
  | some e => rfl
  | none =>
    simp only [FdTable.openAt, onto]
    cases w.dups 0 with
    | false => rfl
    | true =>
      rw [if_pos rfl, if_pos rfl, FdTable.dup2, FdTable.get_set_self]
      simp only [Option.map_some, setCell_array, get_opened htarget]
      exact execArray_array hargv

end Children

section Waiting

variable {w : World} {s s' : Session} {last : Result} {done : Done} {fate : Fate} {k pid : ℕ}

lemma Session.Sound.start (h : s.Sound) (fate : Fate) : (s.start fate).Sound where
  standard := h.standard
  started pid hpid := by
    rw [Session.start, List.mem_append, List.mem_singleton] at hpid
    rw [Session.start, List.length_append, List.length_singleton]
    rcases hpid with hpid | rfl
    · exact (h.started pid hpid).trans (Nat.lt_succ_self _)
    · exact Nat.lt_succ_self _
  nodup := by
    rw [Session.start, List.nodup_append]
    refine ⟨h.nodup, List.nodup_cons.mpr ⟨List.not_mem_nil, List.nodup_nil⟩, fun pid hpid last hlast => ?_⟩
    rw [List.mem_singleton.mp hlast]
    exact (h.started pid hpid).ne

lemma view_waitForPid (w : World) (k pid : ℕ) (s : Session) (last : Result) :
    (waitForPid w (w.waits k) pid s).2.view (waitForPid w (w.waits k) pid s).1 =
      waited w (s.view last) k := by
  rw [waitForPid, waited]
  cases waitAnswered (w.waits k) with
  | false => rfl
  | true =>
    rw [if_pos rfl, if_pos rfl, Done.ends, Session.view, List.append_nil]
    rfl

lemma fds_waitForPid : (waitForPid w (w.waits k) pid s).2.fds = s.fds := by
  rw [waitForPid]
  split_ifs <;> rfl

lemma Session.Sound.wait (h : s.Sound) : (waitForPid w (w.waits k) pid s).2.Sound := by
  rw [waitForPid]
  split_ifs
  · exact ⟨h.standard, fun other hother => h.started other (List.mem_of_mem_erase hother),
      h.nodup.erase pid⟩
  · exact ⟨h.standard, h.started, h.nodup⟩

lemma mem_waitForPid (h : s.Sound) (hanswered : waitAnswered (w.waits k) = true) {other : ℕ}
    (hother : other ∈ (waitForPid w (w.waits k) pid s).2.unreaped) :
    other ≠ pid ∧ other ∈ s.unreaped := by
  rw [waitForPid, if_pos hanswered] at hother
  exact h.nodup.mem_erase_iff.mp hother

lemma carried_single (h : s.Sound) (last : Result) (fate : Fate) :
    Carried w s (single w (s.view last) fate)
      (if !w.forks 0 then some (.evaluateError, s.report (perror w (ascii "fork")))
      else some (waitForPid w (w.waits 0) s.children.length (s.start fate))) := by
  rw [single]
  cases w.forks 0 with
  | false => exact ⟨_, _, rfl, rfl, rfl, ⟨h.standard, h.started, h.nodup⟩, fun _ _ hpid => hpid⟩
  | true =>
    refine ⟨(waitForPid w (w.waits 0) s.children.length (s.start fate)).1,
      (waitForPid w (w.waits 0) s.children.length (s.start fate)).2, rfl, view_waitForPid w 0 _ _ last, ?_,
      (h.start fate).wait, fun hanswered other hother => ?_⟩
    · rw [fds_waitForPid]
      rfl
    · obtain ⟨hne, hmem⟩ := mem_waitForPid (h.start fate) (hanswered 0) hother
      rw [Session.start, List.mem_append, List.mem_singleton] at hmem
      exact hmem.resolve_right hne

lemma carried_report (h : s.Sound) (last result : Result) (text : Bytes) :
    Carried w s ((s.view last).ends result text) (some (result, s.report text)) :=
  ⟨_, _, rfl, rfl, rfl, ⟨h.standard, h.started, h.nodup⟩, fun _ _ hpid => hpid⟩

lemma Session.Sound.of_eq (h : s.Sound) (hfds : s'.fds.get = s.fds.get)
    (hunreaped : s'.unreaped = s.unreaped) (hchildren : s'.children = s.children) : s'.Sound where
  standard fd hfd := by
    rw [hfds]
    exact h.standard fd hfd
  started pid hpid := by
    rw [hchildren]
    exact h.started pid (hunreaped ▸ hpid)
  nodup := hunreaped ▸ h.nodup

lemma view_ends (last result : Result) : s.view result = (s.view last).ends result [] := by
  rw [Done.ends, Session.view, List.append_nil]
  rfl

def waitForBoth (w : World) (leftPid rightPid : ℕ) (s : Session) : Result × Session :=
  let (result, s) := waitForPid w (w.waits 0) leftPid s
  if result ≠ .success then (.evaluateError, (waitForPid w (w.waits 1) rightPid s).2)
  else waitForPid w (w.waits 1) rightPid s

lemma view_waitForBoth (leftPid rightPid : ℕ) (last : Result) :
    (waitForBoth w leftPid rightPid s).2.view (waitForBoth w leftPid rightPid s).1 =
      waitedBoth w (s.view last) := by
  have hleft := view_waitForPid w 0 leftPid s last
  have hright := view_waitForPid w 1 rightPid (waitForPid w (w.waits 0) leftPid s).2
    (waitForPid w (w.waits 0) leftPid s).1
  have hresult : (waited w (s.view last) 0).result = (waitForPid w (w.waits 0) leftPid s).1 := by
    rw [← hleft]
    rfl
  rw [hleft] at hright
  rw [waitForBoth, waitedBoth, hresult]
  by_cases hok : (waitForPid w (w.waits 0) leftPid s).1 = .success
  · rw [if_pos hok]
    simp only [hok, ne_eq, not_true_eq_false, if_false]
    exact hright
  · rw [if_neg hok, ← hright]
    simp only [ne_eq, hok, not_false_eq_true, if_true]
    exact view_ends _ _

lemma follows_waitForBoth (h : s.Sound) (leftPid rightPid : ℕ) :
    (waitForBoth w leftPid rightPid s).2.Sound ∧
      (waitForBoth w leftPid rightPid s).2.fds = s.fds ∧
      ((∀ k, waitAnswered (w.waits k) = true) →
        ∀ pid ∈ (waitForBoth w leftPid rightPid s).2.unreaped,
          pid ≠ leftPid ∧ pid ≠ rightPid ∧ pid ∈ s.unreaped) := by
  have hstate : (waitForBoth w leftPid rightPid s).2 =
      (waitForPid w (w.waits 1) rightPid (waitForPid w (w.waits 0) leftPid s).2).2 := by
    simp only [waitForBoth]
    split_ifs <;> rfl
  rw [hstate]
  refine ⟨h.wait.wait, by rw [fds_waitForPid, fds_waitForPid], fun hanswered pid hpid => ?_⟩
  obtain ⟨hright, hmem⟩ := mem_waitForPid h.wait (hanswered 1) hpid
  obtain ⟨hleft, hmem⟩ := mem_waitForPid h (hanswered 0) hmem
  exact ⟨hleft, hright, hmem⟩

end Waiting

section Evaluate

variable {w : World} {s : Session} {garbage rest : List (Option Bytes)} {front after toks : List Bytes}
  {operator : Bytes}

lemma getElem_after (front : List Bytes) (operator : Bytes) (after : List Bytes)
    (rest : List (Option Bytes)) :
    (array (front ++ operator :: after) rest)[front.length + 1]? = some after.head? := by
  have hget := getElem_front (front ++ [operator]) after rest
  rwa [List.append_assoc, List.singleton_append, List.length_append, List.length_singleton] at hget

lemma carried_exit (h : s.Sound) (last : Result) (operands : List Bytes) (rest : List (Option Bytes)) :
    Carried w s (exitDone (s.view last) operands)
      (handleExitCommand w (array (ascii "exit" :: operands) rest) s) := by
  have hleaves (status : ℕ) : Carried w s ((s.view last).leaves status)
      (some (.readlineExit, waitForAllChildren w { s with exitStatus := status })) :=
    ⟨_, _, rfl, rfl, rfl, ⟨h.standard, fun pid hpid => h.started pid (List.mem_of_mem_drop hpid),
      h.nodup.sublist (List.drop_sublist _ _)⟩, fun _ pid hpid => List.mem_of_mem_drop hpid⟩
  match operands with
  | [] => exact hleaves 0
  | [text] =>
    change Carried w s (match parseExitStatus text with | none => _ | some status => _)
      (match parseExitStatus text with | none => _ | some status => _)
    cases parseExitStatus text with
    | none => exact carried_report h last _ _
    | some status => exact hleaves status
  | _ :: _ :: _ => exact carried_report h last _ _

lemma carried_pipe (h : s.Sound) (last : Result) (hfront : front ≠ []) (hafter : after ≠ [])
    (hroom : after.length < garbage.length) :
    Carried w s (pipeDone w s.fds.get (s.view last) front after)
      (executePipeCommand w garbage (array (front ++ operator :: after) rest) front.length s) := by
  have hsome : after.head? ≠ none := fun hnone => hafter (List.head?_eq_none_iff.mp hnone)
  have hrhs := copyRhs_array (front ++ [operator]) after [] rest garbage hroom
  rw [List.append_assoc, List.singleton_append, List.length_append, List.length_singleton,
    List.map_nil, List.nil_append, List.nil_append, List.length_nil] at hrhs
  obtain ⟨ends, t, hmake, hpiped⟩ := makePipe_piped s
  rw [executePipeCommand, if_neg (mt List.length_eq_zero_iff.mp hfront), getElem_after, pipeDone]
  simp only [Option.bind_eq_bind, Option.bind_some, if_neg hsome, hrhs, setCell_array, hmake]
  cases w.pipes with
  | false => exact carried_report h last _ _
  | true =>
    have hleft := pipedChild_eq w 0 (after.map some ++ none :: rest) hfront hpiped
      hpiped.get_write (h.standard 1 (by decide))
    have hright := pipedChild_eq w 1 (garbage.drop (after.length + 1)) hafter hpiped
      hpiped.get_read (h.standard 0 (by decide))
    cases w.forks 0 with
    | false => exact ⟨_, _, rfl, rfl, hpiped.get_closed, h.of_eq hpiped.get_closed rfl rfl,
        fun _ _ hpid => hpid⟩
    | true =>
      simp only [Bool.not_true, Bool.false_eq_true, if_false]
      rw [hleft]
      simp only [Option.bind_some]
      cases w.forks 1 with
      | false =>
        let failed := closeEnds (({ s with fds := t, pipeCount := s.pipeCount + 1 }.start
          (onto w s.fds.get 0 front 1 (.pipeWrite s.pipeCount))).report (perror w (ascii "fork"))) ends
        have hsound : failed.Sound :=
          (h.start (onto w s.fds.get 0 front 1 (.pipeWrite s.pipeCount))).of_eq hpiped.get_closed rfl rfl
        refine ⟨.evaluateError, (waitForPid w (w.waits 0) s.children.length failed).2, rfl, ?_, ?_,
          hsound.wait, fun hanswered pid hpid => ?_⟩
        · rw [view_ends (waitForPid w (w.waits 0) s.children.length failed).1,
            view_waitForPid w 0 _ _ .evaluateError]
          rfl
        · rw [fds_waitForPid]
          exact hpiped.get_closed
        · obtain ⟨hne, hmem⟩ := mem_waitForPid hsound (hanswered 0) hpid
          exact (List.mem_append.mp hmem).resolve_right (fun hlast => hne (List.mem_singleton.mp hlast))
      | true =>
        simp only [Bool.not_true, Bool.false_eq_true, if_false, Session.start, hright, Option.bind_some]
        let both := closeEnds (({ s with fds := t, pipeCount := s.pipeCount + 1 }.start
          (onto w s.fds.get 0 front 1 (.pipeWrite s.pipeCount))).start
            (onto w s.fds.get 1 after 0 (.pipeRead s.pipeCount))) ends
        have hsound : both.Sound := ((h.start (onto w s.fds.get 0 front 1 (.pipeWrite s.pipeCount))).start
          (onto w s.fds.get 1 after 0 (.pipeRead s.pipeCount))).of_eq hpiped.get_closed rfl rfl
        let rightPid := (s.children ++ [onto w s.fds.get 0 front 1 (.pipeWrite s.pipeCount)]).length
        obtain ⟨hsound', hfds, hreaped⟩ := follows_waitForBoth (w := w) hsound s.children.length rightPid
        refine ⟨(waitForBoth w s.children.length rightPid both).1,
          (waitForBoth w s.children.length rightPid both).2, ?_, view_waitForBoth _ _ last, ?_, hsound',
          fun hanswered pid hpid => ?_⟩
        · rw [waitForBoth, Prod.mk.eta]
          exact (apply_ite some _ _ _).symm
        · rw [hfds]
          exact hpiped.get_closed
        · obtain ⟨hleft, hright, hmem⟩ := hreaped hanswered pid hpid
          have hmem := (List.mem_append.mp hmem).resolve_right
            (fun hlast => hright (List.mem_singleton.mp hlast))
          exact (List.mem_append.mp hmem).resolve_right (fun hlast => hleft (List.mem_singleton.mp hlast))

lemma carried_redirect (h : s.Sound) (last : Result) (hfront : front ≠ []) (file : Bytes) :
    Carried w s (single w (s.view last) (redirected w s.fds.get front operator file))
      (executeRedirectionCommand w (array (front ++ [operator, file]) rest) front.length s) := by
  have hend : (array (front ++ [operator, file]) rest)[front.length + 2]? = some none := by
    have hget := getElem_after (front ++ [operator]) file [] rest
    rwa [List.append_assoc, List.singleton_append, List.length_append, List.length_singleton] at hget
  have htarget : s.fds.get (redirection operator).2 ≠ none := by
    apply h.standard
    rw [redirection]
    split_ifs <;> decide
  have hchild := redirectedChild_eq w file [file] rest hfront htarget
  rw [executeRedirectionCommand, if_neg (mt List.length_eq_zero_iff.mp hfront), getElem_after,
    getElem_front, hend]
  simp only [Option.bind_eq_bind, Option.bind_some, List.head?_cons, ne_eq, not_true_eq_false, if_false,
    hchild]
  exact carried_single h last _

lemma carried_redirect_refused (h : s.Sound) (last : Result)
    (hbad : front = [] ∨ ∀ file, after ≠ [file]) :
    Carried w s ((s.view last).ends .evaluateError syntaxError)
      (executeRedirectionCommand w (array (front ++ operator :: after) rest) front.length s) := by
  rw [executeRedirectionCommand]
  by_cases hfront : front = []
  · rw [hfront, if_pos List.length_nil]
    exact carried_report h last _ _
  · rw [if_neg (mt List.length_eq_zero_iff.mp hfront), getElem_after]
    match after with
    | [] => exact carried_report h last _ _
    | [file] => exact absurd rfl (hbad.resolve_left hfront file)
    | file :: more :: others =>
      have hget := getElem_after (front ++ [operator]) file (more :: others) rest
      rw [List.append_assoc, List.singleton_append, List.length_append, List.length_singleton] at hget
      simp only [Option.bind_eq_bind, Option.bind_some, List.head?_cons, hget]
      exact carried_report h last _ _

lemma carried_pipe_refused (h : s.Sound) (last : Result) (hbad : front = [] ∨ after = []) :
    Carried w s ((s.view last).ends .evaluateError syntaxError)
      (executePipeCommand w garbage (array (front ++ operator :: after) rest) front.length s) := by
  rw [executePipeCommand]
  by_cases hfront : front = []
  · rw [hfront, if_pos List.length_nil]
    exact carried_report h last _ _
  · rw [if_neg (mt List.length_eq_zero_iff.mp hfront), getElem_after, hbad.resolve_left hfront]
    exact carried_report h last _ _

lemma carried_evaluate (h : s.Sound) (last : Result) (hfew : toks.length ≤ maxArgs - 1)
    (hgarbage : garbage.length = maxArgs) :
    Carried w s (carryOut w s.fds.get (s.view last) (meaning toks))
      (evaluate w garbage (array toks rest) s) := by
  cases toks with
  | nil => exact ⟨_, _, rfl, view_ends last _, rfl, h, fun _ _ hpid => hpid⟩
  | cons name others =>
    have hsplit := List.takeWhile_append_dropWhile (p := (!isOperatorText ·)) (l := name :: others)
    have hfind := findOperatorFrom_first [] (name :: others) rest
    have hzero : (array (name :: others) rest)[0]? = some (some name) := rfl
    rw [List.nil_append, List.length_nil] at hfind
    rw [evaluate, hzero, hfind, meaning, if_neg (not_lt.mpr hfew)]
    cases hdrop : (name :: others).dropWhile (!isOperatorText ·) with
    | nil =>
      rw [hdrop, List.append_nil] at hsplit
      simp only [Option.bind_eq_bind, Option.bind_some, hsplit, List.cons_ne_nil, if_false, List.head?_cons,
        Option.some.injEq, List.tail_cons]
      by_cases hexit : name = ascii "exit"
      · rw [if_pos hexit, if_pos hexit, hexit]
        exact carried_exit h last others rest
      · rw [if_neg hexit, if_neg hexit, executeExternalCommand, execArray_array (List.cons_ne_nil _ _)]
        exact carried_single h last (programOf w (name :: others) s.fds.get)
    | cons operator after =>
      rw [hdrop] at hsplit
      generalize hbefore : (name :: others).takeWhile (!isOperatorText ·) = before at hsplit ⊢
      rw [← hsplit] at hfew ⊢
      have hroom : after.length < garbage.length := by
        rw [List.length_append, List.length_cons] at hfew
        rw [hgarbage, maxArgs] at *
        omega
      simp only [Option.bind_eq_bind, Option.bind_some]
      by_cases hany : after.any isOperatorText = true
      · rw [if_pos hany, if_pos (Or.inr (Or.inr hany))]
        exact carried_report h last _ _
      · rw [if_neg hany]
        simp only [Nat.zero_add, getElem_front, Option.bind_some, List.head?_cons, Option.some.injEq]
        by_cases hbar : operator = [bar]
        · rw [if_pos hbar, if_pos hbar]
          by_cases hbad : before = [] ∨ after = []
          · rw [if_pos (hbad.imp_right Or.inl)]
            exact carried_pipe_refused h last hbad
          · obtain ⟨hfront, hafter⟩ := not_or.mp hbad
            rw [if_neg (not_or.mpr ⟨hfront, not_or.mpr ⟨hafter, hany⟩⟩)]
            exact carried_pipe h last hfront hafter hroom
        · rw [if_neg hbar, if_neg hbar]
          by_cases hbad : before = [] ∨ after = []
          · rw [if_pos (hbad.imp_right Or.inl)]
            exact carried_redirect_refused h last (hbad.imp_right
              fun hnil file hfile => List.cons_ne_nil _ _ (hfile.symm.trans hnil))
          · obtain ⟨hfront, hafter⟩ := not_or.mp hbad
            rw [if_neg (not_or.mpr ⟨hfront, not_or.mpr ⟨hafter, hany⟩⟩)]
            obtain ⟨file, others', rfl⟩ := List.exists_cons_of_ne_nil hafter
            cases others' with
            | nil => exact carried_redirect h last hfront file
            | cons => exact carried_redirect_refused h last (Or.inr fun file' hfile => by simp at hfile)

end Evaluate

structure Round where
  line : Option Bytes
  behind : Bytes
  cells : List Pointer
  garbage : List (Option Bytes)
  world : World

structure Round.WellFormed (r : Round) : Prop where
  noNul : ∀ command, r.line = some command → 0 ∉ command
  cells_length : r.cells.length = maxArgs
  garbage_length : r.garbage.length = maxArgs

def mainLoop : List Round → Result → Session → Option (Result × Session)
  | [], last, s => some (last, s)
  | r :: rounds, _, s => do
    let (result, s) ← round r.world r.line r.behind r.cells r.garbage s
    if result = .readlineExit then return (result, s) else mainLoop rounds result s

def carryAll (fds : ℕ → Option Handle) : List Round → Done → Done
  | [], done => done
  | r :: rounds, done =>
    let next := carryOut r.world fds done (lineMeaning r.line)
    if next.result = .readlineExit then next else carryAll fds rounds next

section Rounds

variable {s : Session} {r : Round} {rounds : List Round}

lemma carried_round (h : s.Sound) (last : Result) (hr : r.WellFormed) :
    Carried r.world s (carryOut r.world s.fds.get (s.view last) (lineMeaning r.line))
      (round r.world r.line r.behind r.cells r.garbage s) := by
  cases hline : r.line with
  | none => exact ⟨_, _, rfl, view_ends last _, rfl, h, fun _ _ hpid => hpid⟩
  | some command =>
    cases hcommand : command with
    | nil =>
      have hnothing : lineMeaning (some []) = .nothing := by
        rw [lineMeaning, tokens]
        rfl
      rw [hnothing]
      exact ⟨_, _, rfl, view_ends last _, rfl, h, fun _ _ hpid => hpid⟩
    | cons c others =>
      rw [hcommand] at hline
      rw [round, lineMeaning]
      rcases parseArgs_array (c :: others) r.behind r.cells (hr.noNul _ hline) hr.cells_length with
        ⟨hmany, hparse⟩ | ⟨hfew, final, rest, hparse, hargs⟩
      · rw [hparse, meaning, if_pos hmany]
        exact carried_report h last _ _
      · simp only [hparse, hargs]
        exact carried_evaluate h last hfew hr.garbage_length
      · exact List.cons_ne_nil _ _

theorem session_carried_out (rounds : List Round) (last : Result) (s : Session) (h : s.Sound)
    (hrounds : ∀ r ∈ rounds, r.WellFormed) :
    ∃ result s', mainLoop rounds last s = some (result, s') ∧
      s'.view result = carryAll s.fds.get rounds (s.view last) ∧ s'.fds.get = s.fds.get ∧
      ((∀ r ∈ rounds, ∀ k, waitAnswered (r.world.waits k) = true) →
        ∀ pid ∈ s'.unreaped, pid ∈ s.unreaped) := by
  induction rounds generalizing last s with
  | nil => exact ⟨last, s, rfl, rfl, rfl, fun _ _ hpid => hpid⟩
  | cons r rounds ih =>
    obtain ⟨hr, hrounds⟩ := List.forall_mem_cons.mp hrounds
    obtain ⟨result, s', hround, hfollows⟩ := carried_round h last hr
    rw [mainLoop, hround, carryAll, ← hfollows.view_eq]
    by_cases hexit : result = .readlineExit
    · refine ⟨result, s', if_pos hexit, (if_pos hexit).symm, hfollows.fds_eq, fun hanswered => ?_⟩
      exact hfollows.reaped (List.forall_mem_cons.mp hanswered).1
    · obtain ⟨result', s'', hloop, hview, hfds, hreaped⟩ := ih result s' hfollows.sound hrounds
      refine ⟨result', s'', (if_neg hexit).trans hloop, ?_, hfds.trans hfollows.fds_eq,
        fun hanswered pid hpid => ?_⟩
      · rw [hview, hfollows.fds_eq]
        exact (if_neg hexit).symm
      · obtain ⟨hhere, hlater⟩ := List.forall_mem_cons.mp hanswered
        exact hfollows.reaped hhere pid (hreaped hlater pid hpid)

end Rounds

def quietWorld : World where
  execvp := fun _ => none
  execv := fun _ => none
  opens := fun _ _ => none
  pipes := true
  forks := fun _ => true
  dups := fun _ => true
  waits := fun _ => []
  reaps := 0
  reason := []

def firstSession : Session :=
  ⟨⟨[some (.inherited 0), some (.inherited 1), some (.inherited 2)]⟩, [], [], 0, [], 0⟩

def typed (line : Bytes) : Round :=
  ⟨some line, [], List.replicate maxArgs .null, List.replicate maxArgs none, quietWorld⟩

theorem session_carried_out_pipe :
    ∃ result s', mainLoop [typed (ascii "a|b"), typed (ascii "exit 3")] .success firstSession =
        some (result, s') ∧ result = .readlineExit ∧ s'.exitStatus = 3 ∧ s'.children =
        [.runs (ascii "a") [ascii "a"] (Function.update firstSession.fds.get 1 (some (.pipeWrite 0))),
          .runs (ascii "b") [ascii "b"] (Function.update firstSession.fds.get 0 (some (.pipeRead 0)))] ∧
        s'.fds.get = firstSession.fds.get ∧ ∀ pid, pid ∉ s'.unreaped := by
  have hpipe : tokens (ascii "a|b") = [ascii "a", ascii "|", ascii "b"] := by
    simp [ascii, tokens, operatorAt, isOperator, isWordByte, space, less, greater, bar]
  have hexit : tokens (ascii "exit 3") = [ascii "exit", ascii "3"] := by
    simp [ascii, tokens, isOperator, isWordByte, space, less, greater, bar]
  have hsound : firstSession.Sound := ⟨by decide, by decide, by decide⟩
  obtain ⟨result, s', hloop, hview, hfds, hreaped⟩ :=
    session_carried_out [typed (ascii "a|b"), typed (ascii "exit 3")] .success firstSession hsound
      (by
        intro r hr
        rw [List.mem_cons, List.mem_singleton] at hr
        rcases hr with rfl | rfl <;>
          exact ⟨fun command hcommand => Option.some.inj hcommand ▸ by decide, rfl, rfl⟩)
  have hmeaning : lineMeaning (typed (ascii "a|b")).line = .pipe [ascii "a"] [ascii "b"] := by
    change meaning (tokens (ascii "a|b")) = _
    rw [hpipe]
    rfl
  have hmeaning' : lineMeaning (typed (ascii "exit 3")).line = .exit [ascii "3"] := by
    change meaning (tokens (ascii "exit 3")) = _
    rw [hexit]
    rfl
  rw [carryAll, hmeaning, carryAll, hmeaning'] at hview
  refine ⟨result, s', hloop, congrArg Done.result hview, congrArg Done.exitStatus hview,
    congrArg Done.children hview, hfds, fun pid hpid => ?_⟩
  have hmem := hreaped (fun r hr k => by
    rw [List.mem_cons, List.mem_singleton] at hr
    rcases hr with rfl | rfl <;> rfl) pid hpid
  cases hmem

end SystemsLab.MiniShell
