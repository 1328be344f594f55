import SystemsLab.CommandLine.Ready
import Mathlib.Logic.Function.Basic

/-! `parse` of `parser.c` with its index into the token array and the argument arrays of its
commands. It does what `parse` does on the list of the tokens. -/

namespace SystemsLab.CommandLine

open CLib

/-- A read behind the `TOKEN_END`, or a write outside of `args`. -/
inductive ParseFault
  | token (i : ℕ)
  | arg (i : ℕ)
deriving DecidableEq

/-- A command with its array `args`, in which `none` is a null pointer. -/
structure CommandCells where
  args : ℕ → Option Bytes
  stdin : Option Bytes
  stdout : Option Bytes
  numArgs : ℕ
  appendStdout : Bool
  type : CommandType

structure PipelineCells where
  isInBackground : Bool
  commands : List CommandCells
  numCommands : ℕ

/-- The token at `i`, where `none` is `TOKEN_END`. -/
def tokenAt (tokens : List Token) (i : ℕ) : Except ParseFault (Option Token) :=
  if i ≤ tokens.length then .ok tokens[i]? else .error (.token i)

namespace CommandCells

def default : CommandCells := ⟨fun _ => none, none, none, 0, false, .null⟩

def setArg (c : CommandCells) (i : ℕ) (arg : Option Bytes) : Except ParseFault CommandCells :=
  if i < maxTokens then .ok { c with args := Function.update c.args i arg } else .error (.arg i)

def redirect (c : CommandCells) (type : TokenType) (file : Bytes) : CommandCells :=
  match type with
  | .redirectIn => { c with stdin := some file }
  | .redirectAppend => { c with stdout := some file, appendStdout := true }
  | _ => { c with stdout := some file }

end CommandCells

/-- The variables of `parse`: its index, the pipelines before the current one, the current one with
its commands before the current one, and the current command. -/
structure ParserCells where
  i : ℕ
  done : List PipelineCells
  isInBackground : Bool
  commands : List CommandCells
  numCommands : ℕ
  command : CommandCells

namespace ParserCells

def init : ParserCells := ⟨0, [], false, [], 0, .default⟩

def pipelines (p : ParserCells) : List PipelineCells :=
  p.done ++ [⟨p.isInBackground, p.commands ++ [p.command], p.numCommands⟩]

def endCommand (p : ParserCells) : Except ParseFault ParserCells :=
  if p.command.numArgs > 0 then
    (p.command.setArg p.command.numArgs none).map fun command => { p with command := command }
  else .ok p

def separate (p : ParserCells) : Except ParseFault ParserCells :=
  if p.numCommands = 0 ∨ p.numCommands = 1 ∧ p.command.numArgs = 0 then .ok p
  else (p.command.setArg p.command.numArgs none).map fun command =>
    { init with
      i := p.i
      done := p.done ++ [⟨p.isInBackground, p.commands ++ [command], p.numCommands⟩] }

def pipe (p : ParserCells) : Except ParseFault ParserCells :=
  (p.command.setArg p.command.numArgs none).map fun command =>
    { p with commands := p.commands ++ [command], command := .default }

def name (p : ParserCells) (token : Token) (arg : Bytes) : Except ParseFault ParserCells :=
  (p.command.setArg p.command.numArgs (some arg)).map fun command =>
    { p with
      numCommands := p.numCommands + 1
      command := { command with
        numArgs := p.command.numArgs + 1
        type :=
          if isBuiltinCommand token then .builtin
          else if isImplementedCommand token then .implemented
          else .other } }

def argument (p : ParserCells) (arg : Bytes) : Except ParseFault ParserCells :=
  (p.command.setArg p.command.numArgs (some arg)).map fun command =>
    { p with command := { command with numArgs := p.command.numArgs + 1 } }

/-- The body of the loop of `parse` at a token before the `TOKEN_END`. Its status `1` is `none`. -/
def onToken (env : Environment) (lastStatus : ℤ) (tokens : List Token) (p : ParserCells)
    (token : Token) : Except ParseFault (Option ParserCells) :=
  if token.type = .sep then p.separate.map some
  else if token.type = .pipe then
    if p.command.numArgs = 0 then .ok none
    else
      match tokenAt tokens (p.i + 1) with
      | .error e => .error e
      | .ok next => if next.map Token.type = some .command then p.pipe.map some else .ok none
  else if isRedirection token then
    match tokenAt tokens (p.i + 1) with
    | .error e => .error e
    | .ok none => .ok none
    | .ok (some file) =>
      if isString file then
        .ok (some { p with
          i := p.i + 1
          command := p.command.redirect token.type (toArgument env file lastStatus) })
      else .ok none
  else if token.type = .background then .ok (some { p with isInBackground := true })
  else if p.command.numArgs = 0 then
    if token.type = .command then (p.name token (toArgument env token lastStatus)).map some
    else .ok none
  else (p.argument (toArgument env token lastStatus)).map some

/-- The body of the loop, and whether it sets `stop`. -/
def turn (env : Environment) (lastStatus : ℤ) (tokens : List Token) (p : ParserCells) :
    Except ParseFault (Option ParserCells × Bool) :=
  match tokenAt tokens p.i with
  | .error e => .error e
  | .ok none => p.endCommand.map fun p => (some p, true)
  | .ok (some token) => (p.onToken env lastStatus tokens token).map fun p => (p, false)

end ParserCells

variable {env : Environment} {lastStatus : ℤ} {tokens : List Token} {stop : Bool}

lemma map_ok {ε α β : Type} {m : Except ε α} {f : α → β} {b : β} (h : m.map f = .ok b) :
    ∃ a, m = .ok a ∧ f a = b := by
  cases m with
  | error e => cases h
  | ok a => exact ⟨a, rfl, Except.ok.inj h⟩

namespace ParserCells

variable {p p' : ParserCells} {token : Token}

lemma separate_i (h : p.separate = .ok p') : p'.i = p.i := by
  rw [separate] at h
  split_ifs at h
  · cases h
    rfl
  · obtain ⟨command, -, rfl⟩ := map_ok h
    rfl

lemma onToken_le (h : p.onToken env lastStatus tokens token = .ok (some p')) : p.i ≤ p'.i := by
  have hsome : ∀ {m : Except ParseFault ParserCells}, m.map some = .ok (some p') →
      m = .ok p' := by
    intro m hm
    obtain ⟨a, hm, ha⟩ := map_ok hm
    rw [hm, Option.some.inj ha]
  rw [onToken] at h
  split_ifs at h with hsep hpipe hargs hredirect hback hnum hcommand
  · exact (separate_i (hsome h)).ge
  · cases h
  · split at h
    · cases h
    · split_ifs at h
      · obtain ⟨command, -, rfl⟩ := map_ok (hsome h)
        exact le_rfl
      · cases h
  · split at h
    · cases h
    · cases h
    · split_ifs at h
      · cases h
        exact Nat.le_succ _
      · cases h
  · cases h
    exact le_rfl
  · obtain ⟨command, -, rfl⟩ := map_ok (hsome h)
    exact le_rfl
  · cases h
  · obtain ⟨command, -, rfl⟩ := map_ok (hsome h)
    exact le_rfl

lemma turn_le {stop : Bool} (h : p.turn env lastStatus tokens = .ok (some p', stop)) :
    p.i ≤ p'.i := by
  rw [turn] at h
  split at h
  · cases h
  · obtain ⟨q, hq, heq⟩ := map_ok h
    cases heq
    rw [endCommand] at hq
    split_ifs at hq
    · obtain ⟨command, -, rfl⟩ := map_ok hq
      exact le_rfl
    · cases hq
      exact le_rfl
  · obtain ⟨q, hq, heq⟩ := map_ok h
    cases heq
    exact onToken_le hq

end ParserCells

/-- The loop of `parse`. -/
def parseLoop (env : Environment) (lastStatus : ℤ) (tokens : List Token) (p : ParserCells) :
    Except ParseFault (Option ParserCells) :=
  match _hturn : p.turn env lastStatus tokens with
  | .error e => .error e
  | .ok (none, _) => .ok none
  | .ok (some p', stop) =>
    match _hnext : tokenAt tokens (p'.i + 1) with
    | .error e => .error e
    | .ok next =>
      if stop ∨ next = none then .ok (some p')
      else parseLoop env lastStatus tokens { p' with i := p'.i + 1 }
termination_by tokens.length - p.i
decreasing_by
  have hle := ParserCells.turn_le _hturn
  have hlt : p'.i + 1 ≤ tokens.length := by
    rw [tokenAt] at _hnext
    split_ifs at _hnext with hi
    exact hi
  omega

/-- `parse`: its status, and the pipelines of the input that it leaves. -/
def parseInto (env : Environment) (lastStatus : ℤ) (tokens : List Token) :
    Except ParseFault (ℕ × List PipelineCells) :=
  (parseLoop env lastStatus tokens .init).map fun p =>
    match p with
    | none => (1, [])
    | some p => (0, p.pipelines)

def Command.cells (c : Command) : CommandCells :=
  ⟨fun i => c.args[i]?, c.stdin, c.stdout, c.args.length, c.appendStdout, c.type⟩

def Pipeline.cells (pipeline : Pipeline) : PipelineCells :=
  ⟨pipeline.isInBackground, pipeline.commands.map Command.cells, pipeline.numCommands⟩

def Parser.cells (i : ℕ) (p : Parser) : ParserCells :=
  ⟨i, p.done.map Pipeline.cells, p.isInBackground, p.commands.map Command.cells, p.numCommands,
    p.command.cells⟩

variable {c : Command} {p : Parser} {token file : Token} {arg : Bytes} {i : ℕ}

lemma Command.setArg_end (hroom : c.args.length < maxTokens) :
    c.cells.setArg c.args.length none = .ok c.cells := by
  have hsame : Function.update (fun i => c.args[i]?) c.args.length none = fun i => c.args[i]? := by
    rw [Function.update_eq_self_iff]
    exact (List.getElem?_eq_none le_rfl).symm
  rw [CommandCells.setArg, if_pos hroom]
  simp only [cells, hsame]

lemma update_args (args : List Bytes) (arg : Bytes) :
    Function.update (fun i => args[i]?) args.length (some arg) = fun i => (args ++ [arg])[i]? := by
  funext i
  rw [Function.update_apply]
  rcases lt_trichotomy i args.length with hlt | rfl | hgt
  · simp [hlt.ne, List.getElem?_append_left hlt]
  · simp
  · have hge : (args ++ [arg]).length ≤ i := by simpa using Nat.succ_le_of_lt hgt
    simp [hgt.ne', List.getElem?_eq_none hge, List.getElem?_eq_none hgt.le]

lemma Command.setArg_push (hroom : c.args.length < maxTokens) :
    c.cells.setArg c.args.length (some arg) =
      .ok { c.cells with args := fun i => (c.args ++ [arg])[i]? } := by
  rw [CommandCells.setArg, if_pos hroom]
  simp only [cells, update_args]

namespace Parser

@[simp] lemma cells_i : (p.cells i).i = i := rfl

@[simp] lemma cells_numArgs : (p.cells i).command.numArgs = p.command.args.length := rfl

lemma cells_pipelines : (p.cells i).pipelines = p.pipelines.map Pipeline.cells := by
  simp [ParserCells.pipelines, pipelines, cells, Pipeline.cells, pipeline]

lemma cells_separate (hroom : p.command.args.length < maxTokens) :
    (p.cells i).separate = .ok (p.separate.cells i) := by
  have hcond : (p.cells i).numCommands = 0 ∨
      (p.cells i).numCommands = 1 ∧ (p.cells i).command.numArgs = 0 ↔
        p.numCommands = 0 ∨ p.numCommands = 1 ∧ p.command.args = [] :=
    or_congr Iff.rfl (and_congr Iff.rfl List.length_eq_zero_iff)
  rw [ParserCells.separate, separate]
  by_cases hempty : p.numCommands = 0 ∨ p.numCommands = 1 ∧ p.command.args = []
  · rw [if_pos hempty, if_pos (hcond.mpr hempty)]
  · rw [if_neg hempty, if_neg (hcond.not.mpr hempty)]
    change (p.command.cells.setArg p.command.args.length none).map _ = _
    rw [Command.setArg_end hroom]
    simp [Except.map, cells, init, ParserCells.init, pipeline, Pipeline.cells]
    rfl

lemma cells_pipe (hroom : p.command.args.length < maxTokens) :
    (p.cells i).pipe = .ok (p.pipe.cells i) := by
  rw [ParserCells.pipe]
  change (p.command.cells.setArg p.command.args.length none).map _ = _
  rw [Command.setArg_end hroom]
  simp [Except.map, cells, pipe]
  rfl

lemma cells_name (hroom : p.command.args.length < maxTokens) (hargs : p.command.args = []) :
    (p.cells i).name token arg = .ok ((p.name token arg).cells i) := by
  rw [ParserCells.name]
  change (p.command.cells.setArg p.command.args.length (some arg)).map _ = _
  rw [Command.setArg_push hroom]
  simp [Except.map, cells, name, Command.cells, hargs]

lemma cells_argument (hroom : p.command.args.length < maxTokens) :
    (p.cells i).argument arg = .ok ((p.argument arg).cells i) := by
  rw [ParserCells.argument]
  change (p.command.cells.setArg p.command.args.length (some arg)).map _ = _
  rw [Command.setArg_push hroom]
  simp [Except.map, cells, argument, Command.cells]

lemma cells_redirect (type : TokenType) :
    (⟨i, p.done.map Pipeline.cells, p.isInBackground, p.commands.map Command.cells, p.numCommands,
      p.command.cells.redirect type arg⟩ : ParserCells) = (p.redirect type arg).cells i := by
  cases type <;> rfl

end Parser

/-- What the body of the loop does at the token at `i`: it fails, or it goes on behind the token at
`j`. `parse` does the same on the list of the tokens. -/
inductive Advance (env : Environment) (lastStatus : ℤ) (tokens : List Token) (i : ℕ) (p : Parser)
    (token : Token) (rest : List Token) : Prop
  | fail (hbody : (p.cells i).onToken env lastStatus tokens token = .ok none)
      (hlist : parseFrom env lastStatus p (token :: rest) = none)
  | next (p' : Parser) (j : ℕ) (hij : i ≤ j) (hj : j < tokens.length)
      (hargs : p'.command.args.length ≤ j + 1)
      (hbody : (p.cells i).onToken env lastStatus tokens token = .ok (some (p'.cells j)))
      (hlist : parseFrom env lastStatus p (token :: rest) =
        parseFrom env lastStatus p' (tokens.drop (j + 1)))

section Advancing

variable {rest : List Token} (hdrop : tokens.drop i = token :: rest)
  (hargs : p.command.args.length ≤ i) (hroom : p.command.args.length < maxTokens)

include hdrop

lemma lt_of_drop : i < tokens.length :=
  List.length_lt_of_drop_ne_nil (by simp [hdrop])

lemma drop_succ_eq : tokens.drop (i + 1) = rest := by
  rw [← List.tail_drop, hdrop]
  rfl

lemma tokenAt_eq : tokenAt tokens i = .ok (some token) := by
  rw [tokenAt, if_pos (lt_of_drop hdrop).le, ← List.head?_drop, hdrop]
  rfl

lemma tokenAt_succ_eq : tokenAt tokens (i + 1) = .ok rest.head? := by
  rw [tokenAt, if_pos (Nat.succ_le_of_lt (lt_of_drop hdrop)), ← List.head?_drop, drop_succ_eq hdrop]

lemma Advance.behind (p' : Parser) (hargs : p'.command.args.length ≤ i + 1)
    (hbody : (p.cells i).onToken env lastStatus tokens token = .ok (some (p'.cells i)))
    (hlist : parseFrom env lastStatus p (token :: rest) = parseFrom env lastStatus p' rest) :
    Advance env lastStatus tokens i p token rest := by
  refine .next p' i le_rfl (lt_of_drop hdrop) hargs hbody ?_
  rw [hlist, drop_succ_eq hdrop]

include hroom in
lemma advance_pipe (hsep : token.type ≠ .sep) (hpipe : token.type = .pipe) :
    Advance env lastStatus tokens i p token rest := by
  by_cases hnil : p.command.args = []
  · apply Advance.fail
    · rw [ParserCells.onToken, if_neg hsep, if_pos hpipe, if_pos (by simp [hnil])]
    · rw [parseFrom.eq_def]
      simp only
      rw [if_neg hsep, if_pos hpipe, if_pos hnil]
  have hbody : (p.cells i).onToken env lastStatus tokens token =
      if rest.head?.map Token.type = some .command then .ok (some (p.pipe.cells i))
      else .ok none := by
    rw [ParserCells.onToken, if_neg hsep, if_pos hpipe, if_neg (by simp [hnil])]
    simp only [Parser.cells_i, tokenAt_succ_eq hdrop, Parser.cells_pipe hroom]
    rfl
  have hlist : parseFrom env lastStatus p (token :: rest) =
      if rest.head?.map Token.type = some .command then parseFrom env lastStatus p.pipe rest
      else none := by
    rw [parseFrom.eq_def]
    simp only
    rw [if_neg hsep, if_pos hpipe, if_neg hnil]
  by_cases hcommand : rest.head?.map Token.type = some .command
  · rw [if_pos hcommand] at hbody hlist
    exact .behind hdrop p.pipe (Nat.zero_le _) hbody hlist
  · rw [if_neg hcommand] at hbody hlist
    exact .fail hbody hlist

include hargs in
lemma advance_redirection (hsep : token.type ≠ .sep) (hpipe : token.type ≠ .pipe)
    (hredirect : isRedirection token = true) : Advance env lastStatus tokens i p token rest := by
  have hbody : (p.cells i).onToken env lastStatus tokens token =
      rest.head?.elim (.ok none) fun file =>
        if isString file then
          .ok (some ((p.redirect token.type (toArgument env file lastStatus)).cells (i + 1)))
        else .ok none := by
    rw [ParserCells.onToken, if_neg hsep, if_neg hpipe, if_pos hredirect]
    simp only [Parser.cells_i, tokenAt_succ_eq hdrop]
    cases rest.head? with
    | none => rfl
    | some file =>
      simp only [Option.elim_some]
      split_ifs
      · exact congrArg (fun q => Except.ok (some q)) (Parser.cells_redirect _)
      · rfl
  have hlist : parseFrom env lastStatus p (token :: rest) =
      rest.head?.elim none fun file =>
        if isString file then
          parseFrom env lastStatus (p.redirect token.type (toArgument env file lastStatus)) rest.tail
        else none := by
    rw [parseFrom.eq_def]
    simp only
    rw [if_neg hsep, if_neg hpipe, if_pos hredirect]
    cases rest <;> rfl
  cases hrest : rest.head? with
  | none =>
    rw [hrest] at hbody hlist
    exact .fail hbody hlist
  | some file =>
    simp only [hrest, Option.elim_some] at hbody hlist
    by_cases hfile : isString file = true
    · rw [if_pos hfile] at hbody hlist
      have hlt : i + 1 < tokens.length := by
        apply List.length_lt_of_drop_ne_nil
        rw [drop_succ_eq hdrop]
        rintro rfl
        cases hrest
      refine .next _ (i + 1) (Nat.le_succ i) hlt ?_ hbody ?_
      · rw [Parser.redirect_args]
        omega
      · rw [hlist, ← drop_succ_eq hdrop, List.tail_drop]
    · rw [if_neg hfile] at hbody hlist
      exact .fail hbody hlist

include hargs hroom

lemma advance_word (hsep : token.type ≠ .sep) (hpipe : token.type ≠ .pipe)
    (hredirect : ¬isRedirection token = true) (hback : token.type ≠ .background) :
    Advance env lastStatus tokens i p token rest := by
  have hbody : (p.cells i).onToken env lastStatus tokens token =
      if (p.cells i).command.numArgs = 0 then
        if token.type = .command then
          ((p.cells i).name token (toArgument env token lastStatus)).map some
        else .ok none
      else ((p.cells i).argument (toArgument env token lastStatus)).map some := by
    rw [ParserCells.onToken, if_neg hsep, if_neg hpipe, if_neg hredirect, if_neg hback]
  have hlist : parseFrom env lastStatus p (token :: rest) =
      if p.command.args = [] then
        if token.type = .command then
          parseFrom env lastStatus (p.name token (toArgument env token lastStatus)) rest
        else none
      else parseFrom env lastStatus (p.argument (toArgument env token lastStatus)) rest := by
    rw [parseFrom.eq_def]
    simp only
    rw [if_neg hsep, if_neg hpipe, if_neg hredirect, if_neg hback]
  by_cases hnil : p.command.args = []
  · rw [if_pos (by simp [hnil])] at hbody
    rw [if_pos hnil] at hlist
    by_cases hcommand : token.type = .command
    · rw [if_pos hcommand] at hbody hlist
      rw [Parser.cells_name hroom hnil] at hbody
      exact .behind hdrop (p.name token _) (Nat.le_add_left 1 i) hbody hlist
    · rw [if_neg hcommand] at hbody hlist
      exact .fail hbody hlist
  · rw [if_neg (by simp [hnil]), Parser.cells_argument hroom] at hbody
    rw [if_neg hnil] at hlist
    exact .behind hdrop _ (by simpa [Parser.argument] using hargs) hbody hlist

lemma advance : Advance env lastStatus tokens i p token rest := by
  by_cases hsep : token.type = .sep
  · apply Advance.behind hdrop p.separate
    · rw [Parser.separate]
      split_ifs
      · exact hargs.trans (Nat.le_succ i)
      · exact Nat.zero_le _
    · rw [ParserCells.onToken, if_pos hsep, Parser.cells_separate hroom]
      rfl
    · rw [parseFrom.eq_def]
      simp only
      rw [if_pos hsep]
  by_cases hpipe : token.type = .pipe
  · exact advance_pipe hdrop hroom hsep hpipe
  by_cases hredirect : isRedirection token = true
  · exact advance_redirection hdrop hargs hsep hpipe hredirect
  by_cases hback : token.type = .background
  · apply Advance.behind hdrop p.background (hargs.trans (Nat.le_succ i))
    · rw [ParserCells.onToken, if_neg hsep, if_neg hpipe, if_neg hredirect, if_pos hback]
      rfl
    · rw [parseFrom.eq_def]
      simp only
      rw [if_neg hsep, if_neg hpipe, if_neg hredirect, if_pos hback]
  · exact advance_word hdrop hargs hroom hsep hpipe hredirect hback

end Advancing

def Gives (r : Except ParseFault (Option ParserCells)) (q : Option Parser) : Prop :=
  r.map (Option.map ParserCells.pipelines) =
    .ok (q.map fun q => q.pipelines.map Pipeline.cells)

lemma parseLoop_of_fail (hturn : (p.cells i).turn env lastStatus tokens = .ok (none, stop)) :
    parseLoop env lastStatus tokens (p.cells i) = .ok none := by
  rw [parseLoop]
  split
  · next e he => cases he.symm.trans hturn
  · rfl
  · next p' stop he => cases he.symm.trans hturn

lemma parseLoop_of_next {p' : Parser} {j : ℕ} (hj : j < tokens.length)
    (hturn : (p.cells i).turn env lastStatus tokens = .ok (some (p'.cells j), false)) :
    parseLoop env lastStatus tokens (p.cells i) =
      if tokens[j + 1]? = none then .ok (some (p'.cells j))
      else parseLoop env lastStatus tokens (p'.cells (j + 1)) := by
  have hread : tokenAt tokens (j + 1) = .ok tokens[j + 1]? := by
    rw [tokenAt, if_pos (Nat.succ_le_of_lt hj)]
  rw [parseLoop]
  split
  · next e he => cases he.symm.trans hturn
  · next stop he => cases he.symm.trans hturn
  · next q stop he =>
    cases he.symm.trans hturn
    split
    · next e he => cases he.symm.trans hread
    · next next he =>
      cases he.symm.trans hread
      simp only [Bool.false_eq_true, false_or]
      rfl

lemma parseLoop_eq (hi : i < tokens.length) (hroom : tokens.length < maxTokens)
    (hargs : p.command.args.length ≤ i) :
    Gives (parseLoop env lastStatus tokens (p.cells i))
      (parseFrom env lastStatus p (tokens.drop i)) := by
  induction hk : tokens.length - i using Nat.strong_induction_on generalizing i p with
  | _ k ih =>
    have hdrop := List.drop_eq_getElem_cons hi
    have hturn : ∀ r, (p.cells i).onToken env lastStatus tokens tokens[i] = .ok r →
        (p.cells i).turn env lastStatus tokens = .ok (r, false) := by
      intro r hr
      simp only [ParserCells.turn, Parser.cells_i, tokenAt_eq hdrop, hr, Except.map]
    have hadvance : Advance env lastStatus tokens i p tokens[i] (tokens.drop (i + 1)) :=
      advance hdrop hargs (hargs.trans_lt (hi.trans hroom))
    rw [hdrop]
    cases hadvance with
    | fail hbody hlist =>
      rw [hlist, parseLoop_of_fail (hturn _ hbody)]
      rfl
    | next p' j hij hj hargs' hbody hlist =>
      rw [hlist, parseLoop_of_next hj (hturn _ hbody)]
      by_cases hend : tokens[j + 1]? = none
      · rw [if_pos hend, List.drop_eq_nil_of_le (List.getElem?_eq_none_iff.mp hend), parseFrom, Gives]
        simp [Except.map, Parser.cells_pipelines]
      · have hlt : j + 1 < tokens.length := by
          rw [List.getElem?_eq_none_iff] at hend
          omega
        rw [if_neg hend]
        exact ih (tokens.length - (j + 1)) (by omega) hlt hargs' rfl

theorem parseInto_eq (hne : tokens ≠ []) (hroom : tokens.length < maxTokens) :
    parseInto env lastStatus tokens =
      .ok (match parse env lastStatus tokens with
        | none => (1, [])
        | some pipelines => (0, pipelines.map Pipeline.cells)) := by
  have hloop : Gives (parseLoop env lastStatus tokens (Parser.init.cells 0))
      (parseFrom env lastStatus .init (tokens.drop 0)) :=
    parseLoop_eq (List.length_pos_iff.mpr hne) hroom le_rfl
  rw [Gives, List.drop_zero] at hloop
  obtain ⟨r, hr, hpipelines⟩ := map_ok hloop
  rw [parseInto]
  change (parseLoop env lastStatus tokens (Parser.init.cells 0)).map _ = _
  rw [hr, parse]
  cases hq : parseFrom env lastStatus .init tokens with
  | none =>
    rw [hq] at hpipelines
    cases r with
    | none => rfl
    | some p => cases hpipelines
  | some q =>
    rw [hq] at hpipelines
    cases r with
    | none => cases hpipelines
    | some p => exact congrArg (fun l => Except.ok (0, l)) (Option.some.inj hpipelines)

end SystemsLab.CommandLine
