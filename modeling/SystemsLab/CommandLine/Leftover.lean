import SystemsLab.CommandLine.Ready
import Mathlib.Order.Lattice
import Mathlib.Order.BooleanAlgebra.Basic

namespace SystemsLab.CommandLine

open CLib

abbrev Redirections := Bool × Bool × Bool

def Token.redirections (token : Token) : Redirections :=
  match token.type with
  | .redirectIn => (true, false, false)
  | .redirectOut => (false, true, false)
  | .redirectAppend => (false, true, true)
  | _ => ⊥

def redirections (tokens : List Token) : Redirections :=
  tokens.foldr (fun token rest => token.redirections ⊔ rest) ⊥

def hasAmpersand (tokens : List Token) : Bool := tokens.any (·.type = .background)

def hasCommand (tokens : List Token) : Bool := tokens.any (·.type = .command)

def leftoverStep (left : Option (List Token)) (token : Token) : Option (List Token) :=
  if token.type = .command then none
  else if token.type = .sep then some (left.getD [])
  else left.map (· ++ [token])

def leftover (tokens : List Token) : List Token :=
  (tokens.foldl leftoverStep (some [])).getD []

def firstPart (named : Bool) : List Token → List Token
  | [] => []
  | token :: tokens =>
    if token.type = .sep ∧ named = true then []
    else token :: firstPart (named || token.type = .command) tokens

def firstCommand (tokens : List Token) : List Token :=
  (firstPart false tokens).takeWhile (·.type ≠ .pipe)

def Separable (a b : List Token) : Prop :=
  hasCommand b = true →
    redirections (leftover a) ≤ redirections (firstCommand b) ∧
      (hasAmpersand (leftover a) = true → hasAmpersand (firstPart false b) = true)

instance (a b : List Token) : Decidable (Separable a b) := inferInstanceAs (Decidable (_ → _))

def runnable (pipelines : List Pipeline) : List Pipeline :=
  pipelines.filter fun pipeline => 0 < pipeline.numCommands

def Command.redirections (c : Command) : Redirections :=
  (c.stdin.isSome, c.stdout.isSome, c.appendStdout)

variable {env : Environment} {lastStatus : ℤ} {p q r : Parser} {token : Token}
  {tokens tokens' : List Token}

@[simp] lemma redirections_nil : redirections [] = ⊥ := rfl

@[simp] lemma redirections_cons :
    redirections (token :: tokens) = token.redirections ⊔ redirections tokens := rfl

@[simp] lemma redirections_append :
    redirections (tokens ++ tokens') = redirections tokens ⊔ redirections tokens' := by
  induction tokens with
  | nil => exact (bot_sup_eq _).symm
  | cons token tokens ih => rw [List.cons_append, redirections_cons, redirections_cons, ih, sup_assoc]

@[simp] lemma hasAmpersand_cons :
    hasAmpersand (token :: tokens) = (decide (token.type = .background) || hasAmpersand tokens) := rfl

@[simp] lemma hasAmpersand_append :
    hasAmpersand (tokens ++ tokens') = (hasAmpersand tokens || hasAmpersand tokens') :=
  List.any_append

lemma redirections_of_isString (h : isString token) : token.redirections = ⊥ := by
  rcases isString_iff.mp h with ht | ht <;> simp [Token.redirections, ht]

lemma Parser.redirect_redirections (htype : isRedirection token) (file : Bytes) :
    (p.redirect token.type file).command.redirections =
      p.command.redirections ⊔ token.redirections := by
  rcases isRedirection_iff.mp htype with ht | ht | ht
  all_goals simp [Token.redirections, Command.redirections, Parser.redirect, ht]

def Leaves (p : Parser) : Option (List Token) → Prop
  | none => 0 < p.numCommands
  | some left => p.numCommands = 0 ∧ p.isInBackground = hasAmpersand left ∧
      p.command.redirections = redirections left

lemma Leaves.sep {left : Option (List Token)} (htype : token.type = .sep)
    (hr : p.Ready) (hl : Leaves p left) : Leaves p.separate (leftoverStep left token) := by
  cases left with
  | none =>
    rw [hr.separate_of_pos hl]
    simp [leftoverStep, htype, Leaves, Parser.init, defaultCommand, Command.redirections,
      hasAmpersand]
    rfl
  | some left =>
    rw [Parser.separate_of_empty hl.1]
    simpa [leftoverStep, htype] using hl

lemma Leaves.redirect {left : Option (List Token)} {file : Token} (htype : isRedirection token)
    (hfile : isString file) (bytes : Bytes) (hl : Leaves p left) :
    Leaves (p.redirect token.type bytes) (leftoverStep (leftoverStep left token) file) := by
  obtain ⟨hcommand, hsep, -, hback⟩ := type_ne_of_isRedirection htype
  obtain ⟨hcommand', hsep', -, hback'⟩ := type_ne_of_isString hfile
  cases left with
  | none =>
    simpa [leftoverStep, hcommand, hsep, hcommand', hsep', Leaves, Parser.redirect_numCommands]
      using hl
  | some left =>
    obtain ⟨h0, hbg, hredirections⟩ := hl
    simp only [leftoverStep, hcommand, hsep, hcommand', hsep', if_false, Option.map_some]
    refine ⟨?_, ?_, ?_⟩
    · rwa [Parser.redirect_numCommands]
    · rw [Parser.redirect_isInBackground, hbg]
      simp [hback, hback', hasAmpersand]
    · rw [Parser.redirect_redirections htype, hredirections]
      simp [redirections_of_isString hfile]

lemma Leaves.background {left : Option (List Token)} (htype : token.type = .background)
    (hl : Leaves p left) : Leaves p.background (leftoverStep left token) := by
  cases left with
  | none =>
    have hstep : leftoverStep none token = none := by simp [leftoverStep, htype]
    rw [hstep]
    exact hl
  | some left =>
    obtain ⟨h0, hbg, hredirections⟩ := hl
    have hstep : leftoverStep (some left) token = some (left ++ [token]) := by
      simp [leftoverStep, htype]
    have hnone : token.redirections = ⊥ := by simp [Token.redirections, htype]
    rw [hstep]
    refine ⟨h0, ?_, ?_⟩
    · simp [Parser.background, htype]
    · rw [redirections_append, redirections_cons, hnone, ← hredirections]
      simp [Parser.background]

lemma Leaves.behind {left : Option (List Token)} (hpos : 0 < p.numCommands)
    (hq : 0 < q.numCommands) (htype : token.type ≠ .sep) (hl : Leaves p left) :
    Leaves q (leftoverStep left token) := by
  cases left with
  | none =>
    have hstep : leftoverStep none token = none := by simp [leftoverStep, htype]
    rw [hstep]
    exact hq
  | some left => exact absurd hl.1 hpos.ne'

lemma Parses.leaves (h : Parses env lastStatus p tokens q) (hp : Stands p tokens)
    {left : Option (List Token)} (hl : Leaves p left) :
    Leaves q (tokens.foldl leftoverStep left) := by
  induction h generalizing left with
  | done p => exact hl
  | sep htype _ ih =>
    apply ih (hp.sep htype)
    exact hl.sep htype (hp.ready (by simp [htype]))
  | pipe htype hargs hnext _ ih =>
    have hpos := (hp.pos_of_args hargs).2
    apply ih (hp.pipe hargs hnext)
    exact hl.behind hpos hpos (by simp [htype])
  | redirect htype hfile _ ih =>
    apply ih (hp.redirect htype _ _)
    exact hl.redirect htype hfile _
  | background htype _ ih =>
    apply ih (hp.background htype)
    exact hl.background htype
  | name htype hargs _ ih =>
    apply ih (hp.name _ _)
    simp [leftoverStep, htype, Leaves, Parser.name]
  | argument htype hargs _ ih =>
    have hpos := (hp.pos_of_args hargs).2
    apply ih (hp.argument hargs _)
    refine hl.behind hpos hpos ?_
    rcases htype with ht | ht
    · simp [ht]
    · exact (type_ne_of_isString ht).2.1

lemma Parser.separate_done : ∃ done, p.separate.done = p.done ++ done := by
  rw [Parser.separate]
  split_ifs
  · exact ⟨[], (List.append_nil _).symm⟩
  · exact ⟨[p.pipeline], rfl⟩

lemma Parses.done_append (h : Parses env lastStatus p tokens q) :
    ∃ done, q.done = p.done ++ done := by
  induction h with
  | done p => exact ⟨[], (List.append_nil _).symm⟩
  | @sep p q token tokens htype _ ih =>
    obtain ⟨done, hdone⟩ := ih
    obtain ⟨done', hdone'⟩ := Parser.separate_done (p := p)
    exact ⟨done' ++ done, by rw [hdone, hdone', List.append_assoc]⟩
  | redirect htype hfile _ ih =>
    rw [Parser.redirect_done] at ih
    exact ih
  | pipe _ _ _ _ ih | background _ _ ih | name _ _ _ ih | argument _ _ _ ih => exact ih

def isNamed (p : Parser) : Bool := decide (0 < p.numCommands)

structure Heads (p : Parser) (tokens : List Token) (pipeline : Pipeline) (c : Command) : Prop where
  command : pipeline.commands.head? = some c
  background : pipeline.isInBackground =
    (p.isInBackground || hasAmpersand (firstPart (isNamed p) tokens))
  first : p.commands = [] → c.redirections = p.command.redirections ⊔
    redirections ((firstPart (isNamed p) tokens).takeWhile (·.type ≠ .pipe))
  later : ∀ first rest, p.commands = first :: rest → c = first
  runnable : 0 < pipeline.numCommands ↔ isNamed p = true ∨ hasCommand tokens = true

lemma heads_self (p : Parser) : ∃ c, Heads p [] p.pipeline c := by
  cases hc : p.commands with
  | nil =>
    refine ⟨p.command, ?_, ?_, fun _ => ?_, ?_, ?_⟩
    · rw [Parser.pipeline, hc]
      rfl
    · simp [Parser.pipeline, firstPart, hasAmpersand]
    · simp [firstPart]
    · rw [hc]
      exact nofun
    · simp [Parser.pipeline, isNamed, hasCommand]
  | cons first rest =>
    refine ⟨first, ?_, ?_, ?_, ?_, ?_⟩
    · rw [Parser.pipeline, hc]
      rfl
    · simp [Parser.pipeline, firstPart, hasAmpersand]
    · rw [hc]
      exact nofun
    · intro first' rest' heq
      rw [hc] at heq
      exact (List.cons.inj heq).1
    · simp [Parser.pipeline, isNamed, hasCommand]

section Front

variable {pipeline : Pipeline} {c : Command}

lemma Heads.of_sep (htype : token.type = .sep) (h0 : p.numCommands = 0)
    (hc : Heads p tokens pipeline c) : Heads p (token :: tokens) pipeline c := by
  have hpart : firstPart (isNamed p) (token :: tokens) =
      token :: firstPart (isNamed p) tokens := by
    simp [firstPart, htype, isNamed, h0]
  refine ⟨hc.command, ?_, fun hnil => ?_, hc.later, ?_⟩
  · rw [hc.background, hpart]
    simp [htype]
  · rw [hc.first hnil, hpart]
    simp [htype, Token.redirections]
  · rw [hc.runnable]
    simp [hasCommand, htype]

lemma heads_sep_of_pos (htype : token.type = .sep) (hpos : 0 < p.numCommands) :
    ∃ c, Heads p (token :: tokens) p.pipeline c := by
  obtain ⟨c, hc⟩ := heads_self p
  have hnamed : isNamed p = true := by simp [isNamed, hpos]
  have hpart : firstPart (isNamed p) (token :: tokens) = [] := by
    simp [firstPart, htype, hnamed]
  refine ⟨c, hc.command, ?_, fun hnil => ?_, hc.later, ?_⟩
  · rw [hc.background, hpart]
    rfl
  · rw [hc.first hnil, hpart]
    rfl
  · rw [hc.runnable]
    simp [hnamed]

lemma Heads.of_pipe (htype : token.type = .pipe) (hpos : 0 < p.numCommands)
    (hc : Heads p.pipe tokens pipeline c) : Heads p (token :: tokens) pipeline c := by
  have hnamed : isNamed p = true := by simp [isNamed, hpos]
  have hsame : isNamed p.pipe = isNamed p := rfl
  have hpart : firstPart (isNamed p) (token :: tokens) =
      token :: firstPart (isNamed p) tokens := by
    simp [firstPart, htype, hnamed]
  refine ⟨hc.command, ?_, fun hnil => ?_, fun first rest hcommands => ?_, ?_⟩
  · rw [hc.background, hsame, hpart]
    simp [htype, Parser.pipe]
  · have hfirst : c = p.command := by
      apply hc.later p.command []
      simp [Parser.pipe, hnil]
    rw [hfirst, hpart]
    simp [htype]
  · apply hc.later first (rest ++ [p.command])
    simp [Parser.pipe, hcommands]
  · rw [hc.runnable, hsame]
    simp [hnamed]

lemma Heads.of_redirect {file : Token} {bytes : Bytes} (htype : isRedirection token)
    (hfile : isString file) (hc : Heads (p.redirect token.type bytes) tokens pipeline c) :
    Heads p (token :: file :: tokens) pipeline c := by
  obtain ⟨hcommand, hsep, hpipe, hback⟩ := type_ne_of_isRedirection htype
  obtain ⟨hcommand', hsep', hpipe', hback'⟩ := type_ne_of_isString hfile
  have hnamed : isNamed (p.redirect token.type bytes) = isNamed p := by
    rw [isNamed, Parser.redirect_numCommands, isNamed]
  have hpart : firstPart (isNamed p) (token :: file :: tokens) =
      token :: file :: firstPart (isNamed p) tokens := by
    simp [firstPart, hsep, hsep', hcommand, hcommand']
  refine ⟨hc.command, ?_, fun hnil => ?_, fun first rest hcommands => ?_, ?_⟩
  · rw [hc.background, Parser.redirect_isInBackground, hnamed, hpart]
    simp [hback, hback']
  · rw [hc.first ((Parser.redirect_commands _ _).trans hnil),
      Parser.redirect_redirections htype, hnamed, hpart]
    simp [hpipe, hpipe', redirections_of_isString hfile, sup_assoc]
  · exact hc.later first rest ((Parser.redirect_commands _ _).trans hcommands)
  · rw [hc.runnable, hnamed]
    simp [hasCommand, hcommand, hcommand']

lemma Heads.of_background (htype : token.type = .background)
    (hc : Heads p.background tokens pipeline c) : Heads p (token :: tokens) pipeline c := by
  have hpart : firstPart (isNamed p) (token :: tokens) =
      token :: firstPart (isNamed p) tokens := by
    simp [firstPart, htype]
  have hnone : token.redirections = ⊥ := by simp [Token.redirections, htype]
  have hnamed : isNamed p.background = isNamed p := rfl
  refine ⟨hc.command, ?_, fun hnil => ?_, hc.later, ?_⟩
  · rw [hc.background, hpart]
    simp [htype, Parser.background]
  · rw [hc.first hnil, hpart, hnamed]
    simp [htype, hnone, Parser.background]
  · rw [hc.runnable, hnamed]
    simp [hasCommand, htype]

lemma Heads.of_name {bytes : Bytes} (htype : token.type = .command)
    (hc : Heads (p.name token bytes) tokens pipeline c) :
    Heads p (token :: tokens) pipeline c := by
  have hnamed : isNamed (p.name token bytes) = true := by simp [isNamed, Parser.name]
  have hpart : firstPart (isNamed p) (token :: tokens) = token :: firstPart true tokens := by
    simp [firstPart, htype]
  have hnone : token.redirections = ⊥ := by simp [Token.redirections, htype]
  refine ⟨hc.command, ?_, fun hnil => ?_, hc.later, ?_⟩
  · rw [hc.background, hpart, hnamed]
    simp [htype, Parser.name]
  · rw [hc.first hnil, hpart, hnamed]
    simp [htype, hnone, Parser.name, Command.redirections]
  · rw [hc.runnable, hnamed]
    simp [hasCommand, htype]

lemma Heads.of_argument {bytes : Bytes} (htype : token.type = .command ∨ isString token)
    (hpos : 0 < p.numCommands) (hc : Heads (p.argument bytes) tokens pipeline c) :
    Heads p (token :: tokens) pipeline c := by
  have hnamed : isNamed p = true := by simp [isNamed, hpos]
  have hnamed' : isNamed (p.argument bytes) = true := hnamed
  have hne : token.type ≠ .sep ∧ token.type ≠ .pipe ∧ token.type ≠ .background ∧
      token.redirections = ⊥ := by
    rcases htype with ht | ht
    · simp [ht, Token.redirections]
    · obtain ⟨-, hsep, hpipe, hback⟩ := type_ne_of_isString ht
      exact ⟨hsep, hpipe, hback, redirections_of_isString ht⟩
  obtain ⟨hsep, hpipe, hback, hnone⟩ := hne
  have hpart : firstPart (isNamed p) (token :: tokens) = token :: firstPart true tokens := by
    simp [firstPart, hsep, hnamed]
  refine ⟨hc.command, ?_, fun hnil => ?_, hc.later, ?_⟩
  · rw [hc.background, hpart, hnamed']
    simp [hback, Parser.argument]
  · rw [hc.first hnil, hpart, hnamed']
    simp [hpipe, hnone, Parser.argument, Command.redirections]
  · rw [hc.runnable, hnamed', hnamed]
    simp

end Front

lemma Parses.heads (h : Parses env lastStatus p tokens q) (hp : Stands p tokens)
    (hdone : p.done = []) :
    ∃ pipeline c, q.pipelines.head? = some pipeline ∧ Heads p tokens pipeline c := by
  induction h with
  | done p =>
    obtain ⟨c, hc⟩ := heads_self p
    refine ⟨p.pipeline, c, ?_, hc⟩
    rw [Parser.pipelines, hdone]
    rfl
  | @sep p q token tokens htype hrest ih =>
    rcases Nat.eq_zero_or_pos p.numCommands with h0 | hpos
    · have hsame := Parser.separate_of_empty h0
      obtain ⟨pipeline, c, hhead, hc⟩ := ih (hp.sep htype) (by rw [hsame, hdone])
      rw [hsame] at hc
      exact ⟨pipeline, c, hhead, hc.of_sep htype h0⟩
    · have hr : p.Ready := hp.ready (by simp [htype])
      obtain ⟨done, hq⟩ := hrest.done_append
      rw [hr.separate_of_pos hpos, hdone] at hq
      obtain ⟨c, hc⟩ := heads_sep_of_pos htype hpos
      refine ⟨p.pipeline, c, ?_, hc⟩
      rw [Parser.pipelines, hq]
      rfl
  | pipe htype hargs hnext _ ih =>
    obtain ⟨pipeline, c, hhead, hc⟩ := ih (hp.pipe hargs hnext) hdone
    exact ⟨pipeline, c, hhead, hc.of_pipe htype (hp.pos_of_args hargs).2⟩
  | redirect htype hfile _ ih =>
    obtain ⟨pipeline, c, hhead, hc⟩ := ih (hp.redirect htype _ _)
      ((Parser.redirect_done _ _).trans hdone)
    exact ⟨pipeline, c, hhead, hc.of_redirect htype hfile⟩
  | background htype _ ih =>
    obtain ⟨pipeline, c, hhead, hc⟩ := ih (hp.background htype) hdone
    exact ⟨pipeline, c, hhead, hc.of_background htype⟩
  | name htype hargs _ ih =>
    obtain ⟨pipeline, c, hhead, hc⟩ := ih (hp.name _ _) hdone
    exact ⟨pipeline, c, hhead, hc.of_name htype⟩
  | argument htype hargs _ ih =>
    obtain ⟨pipeline, c, hhead, hc⟩ := ih (hp.argument hargs _) hdone
    exact ⟨pipeline, c, hhead, hc.of_argument htype (hp.pos_of_args hargs).2⟩

end SystemsLab.CommandLine
