import SystemsLab.CommandLine.Lexer
import Mathlib.Data.Int.Notation

/-! The pipelines of a token list (`parse` of `parser.c`). -/

namespace SystemsLab.CommandLine

open CLib

inductive CommandType
  | null
  | builtin
  | implemented
  | other
deriving DecidableEq

structure Command where
  args : List Bytes
  stdin : Option Bytes
  stdout : Option Bytes
  appendStdout : Bool
  type : CommandType
deriving DecidableEq

def defaultCommand : Command := ⟨[], none, none, false, .null⟩

/-- `commands` is the chain from `first_command` on. -/
structure Pipeline where
  isInBackground : Bool
  commands : List Command
  numCommands : ℕ
deriving DecidableEq

def isBuiltinCommand (token : Token) : Bool :=
  [ascii "cd", ascii "exit", ascii "pwd", ascii "jobs", ascii "fg", ascii "bg"].contains token.data

def isImplementedCommand (token : Token) : Bool :=
  [ascii "pa2", ascii "pa2_head", ascii "pa2_tail", ascii "pa2_cat", ascii "pa2_cp",
    ascii "pa2_mv", ascii "pa2_rm", ascii "pa2_echo"].contains token.data

def isRedirection (token : Token) : Bool :=
  token.type == .redirectIn || token.type == .redirectOut || token.type == .redirectAppend

def isString (token : Token) : Bool := token.type == .argument || token.type == .var

abbrev Environment := Bytes → Option Bytes

def dereferenceVariable (env : Environment) (name : Bytes) (lastStatus : ℤ) : Bytes :=
  if name.head? = some 63 ∨ name = ascii "status" then ascii (toString lastStatus)
  else (env name).getD []

def toArgument (env : Environment) (token : Token) (lastStatus : ℤ) : Bytes :=
  if token.type = .var then dereferenceVariable env token.data lastStatus else token.data

/-- The variables of `parse`: the pipelines before the current one, the current one with its
commands before the current one, and the current command. -/
structure Parser where
  done : List Pipeline
  isInBackground : Bool
  commands : List Command
  numCommands : ℕ
  command : Command

namespace Parser

def init : Parser := ⟨[], false, [], 0, defaultCommand⟩

def pipeline (p : Parser) : Pipeline := ⟨p.isInBackground, p.commands ++ [p.command], p.numCommands⟩

def pipelines (p : Parser) : List Pipeline := p.done ++ [p.pipeline]

def separate (p : Parser) : Parser :=
  if p.numCommands = 0 ∨ p.numCommands = 1 ∧ p.command.args = [] then p
  else { init with done := p.done ++ [p.pipeline] }

def pipe (p : Parser) : Parser :=
  { p with commands := p.commands ++ [p.command], command := defaultCommand }

def redirect (p : Parser) (type : TokenType) (file : Bytes) : Parser :=
  match type with
  | .redirectIn => { p with command := { p.command with stdin := some file } }
  | .redirectAppend =>
    { p with command := { p.command with stdout := some file, appendStdout := true } }
  | _ => { p with command := { p.command with stdout := some file } }

def background (p : Parser) : Parser := { p with isInBackground := true }

def name (p : Parser) (token : Token) (arg : Bytes) : Parser :=
  { p with
    numCommands := p.numCommands + 1
    command := { p.command with
      args := [arg]
      type :=
        if isBuiltinCommand token then .builtin
        else if isImplementedCommand token then .implemented
        else .other } }

def argument (p : Parser) (arg : Bytes) : Parser :=
  { p with command := { p.command with args := p.command.args ++ [arg] } }

end Parser

/-- The loop of `parse`. Its status `1` is `none`. -/
def parseFrom (env : Environment) (lastStatus : ℤ) (p : Parser) : List Token → Option Parser
  | [] => some p
  | token :: tokens =>
    if token.type = .sep then parseFrom env lastStatus p.separate tokens
    else if token.type = .pipe then
      if p.command.args = [] then none
      else if tokens.head?.map Token.type = some .command then
        parseFrom env lastStatus p.pipe tokens
      else none
    else if isRedirection token then
      match tokens with
      | [] => none
      | file :: tokens =>
        if isString file then
          parseFrom env lastStatus (p.redirect token.type (toArgument env file lastStatus)) tokens
        else none
    else if token.type = .background then parseFrom env lastStatus p.background tokens
    else if p.command.args = [] then
      if token.type = .command then
        parseFrom env lastStatus (p.name token (toArgument env token lastStatus)) tokens
      else none
    else parseFrom env lastStatus (p.argument (toArgument env token lastStatus)) tokens

def parse (env : Environment) (lastStatus : ℤ) (tokens : List Token) : Option (List Pipeline) :=
  (parseFrom env lastStatus .init tokens).map Parser.pipelines

inductive Parses (env : Environment) (lastStatus : ℤ) : Parser → List Token → Parser → Prop
  | done (p : Parser) : Parses env lastStatus p [] p
  | sep {p q : Parser} {token : Token} {tokens : List Token} (htype : token.type = .sep)
      (hrest : Parses env lastStatus p.separate tokens q) :
      Parses env lastStatus p (token :: tokens) q
  | pipe {p q : Parser} {token : Token} {tokens : List Token} (htype : token.type = .pipe)
      (hargs : p.command.args ≠ []) (hnext : tokens.head?.map Token.type = some .command)
      (hrest : Parses env lastStatus p.pipe tokens q) :
      Parses env lastStatus p (token :: tokens) q
  | redirect {p q : Parser} {token file : Token} {tokens : List Token}
      (htype : isRedirection token) (hfile : isString file)
      (hrest : Parses env lastStatus (p.redirect token.type (toArgument env file lastStatus))
        tokens q) :
      Parses env lastStatus p (token :: file :: tokens) q
  | background {p q : Parser} {token : Token} {tokens : List Token}
      (htype : token.type = .background)
      (hrest : Parses env lastStatus p.background tokens q) :
      Parses env lastStatus p (token :: tokens) q
  | name {p q : Parser} {token : Token} {tokens : List Token} (htype : token.type = .command)
      (hargs : p.command.args = [])
      (hrest : Parses env lastStatus (p.name token (toArgument env token lastStatus)) tokens q) :
      Parses env lastStatus p (token :: tokens) q
  | argument {p q : Parser} {token : Token} {tokens : List Token}
      (htype : token.type = .command ∨ isString token) (hargs : p.command.args ≠ [])
      (hrest : Parses env lastStatus (p.argument (toArgument env token lastStatus)) tokens q) :
      Parses env lastStatus p (token :: tokens) q

variable {env : Environment} {lastStatus : ℤ} {p q r : Parser} {token : Token}
  {tokens tokens' : List Token}

lemma isString_iff : isString token = true ↔ token.type = .argument ∨ token.type = .var := by
  rw [isString, Bool.or_eq_true, beq_iff_eq, beq_iff_eq]

lemma isRedirection_iff : isRedirection token = true ↔
    token.type = .redirectIn ∨ token.type = .redirectOut ∨ token.type = .redirectAppend := by
  rw [isRedirection, Bool.or_eq_true, Bool.or_eq_true, beq_iff_eq, beq_iff_eq, beq_iff_eq, or_assoc]

lemma parses_of_parseFrom (h : parseFrom env lastStatus p tokens = some q) :
    Parses env lastStatus p tokens q := by
  fun_induction parseFrom env lastStatus p tokens with
  | case1 p =>
    obtain rfl := Option.some.inj h
    exact .done p
  | case2 p token tokens hsep ih => exact .sep hsep (ih h)
  | case4 p token tokens hsep hpipe hargs hnext ih => exact .pipe hpipe hargs hnext (ih h)
  | case7 p token hsep hpipe hredirect file tokens hfile ih =>
    exact .redirect hredirect hfile (ih h)
  | case9 p token tokens hsep hpipe hredirect hback ih => exact .background hback (ih h)
  | case10 p token tokens hsep hpipe hredirect hback hargs hcommand ih =>
    exact .name hcommand hargs (ih h)
  | case12 p token tokens hsep hpipe hredirect hback hargs ih =>
    refine .argument ?_ hargs (ih h)
    rw [isString_iff]
    rw [isRedirection_iff] at hredirect
    cases ht : token.type <;> simp_all
  | case3 | case5 | case6 | case8 | case11 => cases h

lemma parseFrom_of_parses (h : Parses env lastStatus p tokens q) :
    parseFrom env lastStatus p tokens = some q := by
  induction h with
  | done p => rfl
  | sep htype _ ih =>
    rw [parseFrom.eq_def]
    simp [htype, ih]
  | pipe htype hargs hnext _ ih =>
    rw [parseFrom.eq_def]
    simp [htype, hargs, hnext, ih]
  | redirect htype hfile _ ih =>
    rw [parseFrom.eq_def]
    rcases isRedirection_iff.mp htype with ht | ht | ht
    all_goals
      rw [ht] at ih
      simp [ht, htype, hfile, ih]
  | background htype _ ih =>
    rw [parseFrom.eq_def]
    simp [isRedirection, htype, ih]
  | name htype hargs _ ih =>
    rw [parseFrom.eq_def]
    simp [isRedirection, htype, hargs, ih]
  | argument htype hargs _ ih =>
    rw [parseFrom.eq_def]
    rw [isString_iff] at htype
    rcases htype with ht | ht | ht
    all_goals simp [isRedirection, ht, hargs, ih]

lemma parseFrom_iff : parseFrom env lastStatus p tokens = some q ↔ Parses env lastStatus p tokens q :=
  ⟨parses_of_parseFrom, parseFrom_of_parses⟩

lemma Parses.append (h : Parses env lastStatus p tokens q)
    (h' : Parses env lastStatus q tokens' r) : Parses env lastStatus p (tokens ++ tokens') r := by
  induction h with
  | done p => exact h'
  | sep htype _ ih => exact .sep htype (ih h')
  | @pipe p q token tokens htype hargs hnext _ ih =>
    refine .pipe htype hargs ?_ (ih h')
    cases tokens with
    | nil => cases hnext
    | cons next tokens => exact hnext
  | redirect htype hfile _ ih => exact .redirect htype hfile (ih h')
  | background htype _ ih => exact .background htype (ih h')
  | name htype hargs _ ih => exact .name htype hargs (ih h')
  | argument htype hargs _ ih => exact .argument htype hargs (ih h')

end SystemsLab.CommandLine
