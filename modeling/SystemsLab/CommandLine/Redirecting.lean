import SystemsLab.CommandLine.Leftover
import Mathlib.Data.List.Forall2

namespace SystemsLab.CommandLine

open CLib

def segments (current : List Token) : List Token → List (List Token)
  | [] => [current]
  | token :: tokens =>
    if token.type = .pipe ∨ token.type = .sep ∧ hasCommand current then
      current :: segments [] tokens
    else segments (current ++ [token]) tokens

def targets (previous : Option Token) : List Token → List (TokenType × Token)
  | [] => []
  | token :: tokens =>
    (previous.filter isRedirection).toList.map (fun op => (op.type, token)) ++
      targets (some token) tokens

def isOutput (redirection : TokenType × Token) : Bool :=
  redirection.1 == .redirectOut || redirection.1 == .redirectAppend

def lastTarget (kind : TokenType × Token → Bool) (segment : List Token) :
    Option (TokenType × Token) :=
  ((targets none segment).filter kind).getLast?

structure Redirected (env : Environment) (lastStatus : ℤ) (c : Command) (segment : List Token) :
    Prop where
  stdin : c.stdin = (lastTarget (·.1 == .redirectIn) segment).map
    fun r => toArgument env r.2 lastStatus
  stdout : c.stdout = (lastTarget isOutput segment).map fun r => toArgument env r.2 lastStatus

structure LastWins (env : Environment) (lastStatus : ℤ) (c : Command) (segment : List Token) :
    Prop extends Redirected env lastStatus c segment where
  mode : c.appendStdout = true ↔ (lastTarget isOutput segment).map Prod.fst = some .redirectAppend

def appendsLast (segment : List Token) : Prop :=
  (∃ r ∈ targets none segment, r.1 = .redirectAppend) →
    (lastTarget isOutput segment).map Prod.fst = some .redirectAppend

variable {env : Environment} {lastStatus : ℤ} {p q : Parser} {token file : Token}
  {tokens tokens' segment : List Token} {previous : Option Token} {c : Command}
  {kind : TokenType × Token → Bool}

lemma targets_append : targets previous (tokens ++ tokens') =
    targets previous tokens ++ targets (tokens.getLast?.or previous) tokens' := by
  induction tokens generalizing previous with
  | nil => rfl
  | cons token tokens ih =>
    have hlast : (token :: tokens).getLast?.or previous = tokens.getLast?.or (some token) := by
      rw [List.getLast?_cons]
      cases tokens.getLast? <;> rfl
    rw [List.cons_append, targets, targets, ih, hlast, List.append_assoc]

def Closed (segment : List Token) : Prop := ∀ t ∈ segment.getLast?, isRedirection t = false

lemma Closed.snoc (h : isRedirection token = false) : Closed (segment ++ [token]) := by
  intro t ht
  rw [List.getLast?_concat] at ht
  cases ht
  exact h

lemma Closed.targets_snoc (h : Closed segment) (token : Token) :
    targets none (segment ++ [token]) = targets none segment := by
  have hnone : (segment.getLast?.or none).filter isRedirection = none := by
    rw [Option.or_none]
    cases hlast : segment.getLast? with
    | none => rfl
    | some t => simp [h t hlast]
  rw [targets_append, targets, hnone]
  exact List.append_nil _

lemma Closed.targets_redirect (h : Closed segment) (htype : isRedirection token = true) :
    targets none (segment ++ [token, file]) = targets none segment ++ [(token.type, file)] := by
  have hsplit : segment ++ [token, file] = (segment ++ [token]) ++ [file] := by simp
  rw [hsplit, targets_append, h.targets_snoc, List.getLast?_concat, targets]
  simp [htype, targets]

lemma lastTarget_redirect (h : Closed segment) (htype : isRedirection token = true) :
    lastTarget kind (segment ++ [token, file]) =
      if kind (token.type, file) then some (token.type, file) else lastTarget kind segment := by
  rw [lastTarget, h.targets_redirect htype, List.filter_append, lastTarget]
  by_cases hkind : kind (token.type, file) = true <;> simp [hkind]

structure Matches (env : Environment) (lastStatus : ℤ) (c : Command) (segment : List Token) :
    Prop extends Redirected env lastStatus c segment where
  append : c.appendStdout = (targets none segment).any (·.1 == .redirectAppend)

lemma matches_nil : Matches env lastStatus defaultCommand [] := ⟨⟨rfl, rfl⟩, rfl⟩

lemma Matches.snoc (h : Matches env lastStatus c segment) (hclosed : Closed segment)
    (token : Token) : Matches env lastStatus c (segment ++ [token]) := by
  have hsame := hclosed.targets_snoc token
  refine ⟨⟨?_, ?_⟩, ?_⟩
  · rw [lastTarget, hsame]
    exact h.stdin
  · rw [lastTarget, hsame]
    exact h.stdout
  · rw [hsame]
    exact h.append

lemma Matches.redirect (h : Matches env lastStatus p.command segment) (hclosed : Closed segment)
    (htype : isRedirection token = true) :
    Matches env lastStatus (p.redirect token.type (toArgument env file lastStatus)).command
      (segment ++ [token, file]) := by
  refine ⟨⟨?_, ?_⟩, ?_⟩
  · rw [lastTarget_redirect hclosed htype]
    rcases isRedirection_iff.mp htype with ht | ht | ht <;>
      simp [ht, Parser.redirect, h.stdin]
  · rw [lastTarget_redirect hclosed htype]
    rcases isRedirection_iff.mp htype with ht | ht | ht <;>
      simp [ht, Parser.redirect, h.stdout, isOutput]
  · rw [hclosed.targets_redirect htype, List.any_append]
    rcases isRedirection_iff.mp htype with ht | ht | ht <;>
      simp [ht, Parser.redirect, h.append]

def Parser.before (p : Parser) : List Command := p.done.flatMap Pipeline.commands ++ p.commands

structure Segmented (env : Environment) (lastStatus : ℤ) (p : Parser) (done : List (List Token))
    (current : List Token) : Prop where
  before : List.Forall₂ (Matches env lastStatus) p.before done
  command : Matches env lastStatus p.command current
  named : p.command.args ≠ [] ↔ hasCommand current = true
  closed : Closed current

variable {done : List (List Token)} {current : List Token}

lemma init_segmented : Segmented env lastStatus .init [] [] :=
  ⟨.nil, matches_nil, by simp [Parser.init, defaultCommand, hasCommand], nofun⟩

lemma Segmented.next (h : Segmented env lastStatus p done current) {p' : Parser}
    (hbefore : p'.before = p.before ++ [p.command]) (hcommand : p'.command = defaultCommand) :
    Segmented env lastStatus p' (done ++ [current]) [] := by
  refine ⟨?_, ?_, ?_, nofun⟩
  · rw [hbefore]
    exact List.rel_append h.before (.cons h.command .nil)
  · rw [hcommand]
    exact matches_nil
  · simp [hcommand, defaultCommand, hasCommand]

lemma Segmented.snoc (h : Segmented env lastStatus p done current) {p' : Parser}
    (hbefore : p'.before = p.before)
    (hcommand : Matches env lastStatus p'.command current)
    (hnamed : p'.command.args ≠ [] ↔ hasCommand (current ++ [token]) = true)
    (htoken : isRedirection token = false) :
    Segmented env lastStatus p' done (current ++ [token]) := by
  refine ⟨?_, hcommand.snoc h.closed token, hnamed, Closed.snoc htoken⟩
  rw [hbefore]
  exact h.before

lemma hasCommand_snoc : hasCommand (current ++ [token]) = true ↔
    hasCommand current = true ∨ token.type = .command := by
  simp [hasCommand]

lemma not_isRedirection (h : token.type ∈ [.sep, .pipe, .background, .command, .argument, .var]) :
    isRedirection token = false := by
  simp only [List.mem_cons, List.not_mem_nil, or_false] at h
  rcases h with h | h | h | h | h | h <;> simp [isRedirection, h]

lemma Parses.segmented (h : Parses env lastStatus p tokens q) (hp : Stands p tokens)
    (hs : Segmented env lastStatus p done current) :
    List.Forall₂ (Matches env lastStatus) (q.pipelines.flatMap Pipeline.commands)
      (done ++ segments current tokens) := by
  induction h generalizing done current with
  | done p =>
    have hall : p.pipelines.flatMap Pipeline.commands = p.before ++ [p.command] := by
      simp [Parser.pipelines, Parser.pipeline, Parser.before]
    rw [hall]
    exact List.rel_append hs.before (.cons hs.command .nil)
  | @sep p q token tokens htype _ ih =>
    have hr : p.Ready := by
      apply hp.ready
      rw [htype]
      decide
    have hpipe : token.type ≠ .pipe := by
      rw [htype]
      decide
    rcases Nat.eq_zero_or_pos p.numCommands with h0 | hpos
    · have hnone : ¬hasCommand current = true := fun hc => hs.named.mpr hc (hr.empty h0).2.1
      rw [segments, if_neg (by simp [hpipe, hnone])]
      apply ih (hp.sep htype)
      rw [Parser.separate_of_empty h0]
      refine hs.snoc rfl hs.command ?_ (not_isRedirection (by rw [htype]; decide))
      rw [hasCommand_snoc, htype, hs.named]
      simp
    · rw [segments, if_pos (Or.inr ⟨htype, hs.named.mp (hr.named hpos)⟩), List.append_cons]
      apply ih (hp.sep htype)
      rw [hr.separate_of_pos hpos]
      refine hs.next ?_ rfl
      simp [Parser.before, Parser.init, Parser.pipeline]
  | @pipe p q token tokens htype hargs hnext _ ih =>
    rw [segments, if_pos (Or.inl htype), List.append_cons]
    apply ih (hp.pipe hargs hnext)
    refine hs.next ?_ rfl
    simp [Parser.before, Parser.pipe]
  | @redirect p q token file tokens htype hfile _ ih =>
    obtain ⟨hcommand, hsep, hpipe, -⟩ := type_ne_of_isRedirection htype
    obtain ⟨hcommand', hsep', hpipe', -⟩ := type_ne_of_isString hfile
    rw [segments, if_neg (by simp [hpipe, hsep]), segments, if_neg (by simp [hpipe', hsep']),
      List.append_assoc]
    apply ih (hp.redirect htype _ _)
    refine ⟨?_, hs.command.redirect hs.closed htype, ?_, ?_⟩
    · rw [Parser.before, Parser.redirect_done, Parser.redirect_commands]
      exact hs.before
    · rw [Parser.redirect_args, hs.named]
      simp [hasCommand, hcommand, hcommand']
    · have hplain : isRedirection file = false :=
        not_isRedirection (by rcases isString_iff.mp hfile with ht | ht <;> simp [ht])
      rw [← List.append_assoc]
      exact Closed.snoc hplain
  | @background p q token tokens htype _ ih =>
    rw [segments, if_neg (by simp [htype])]
    apply ih (hp.background htype)
    refine hs.snoc rfl hs.command ?_ (not_isRedirection (by simp [htype]))
    rw [hasCommand_snoc, htype, ← hs.named]
    simp [Parser.background]
  | @name p q token tokens htype hargs _ ih =>
    rw [segments, if_neg (by simp [htype])]
    apply ih (hp.name _ _)
    refine hs.snoc rfl ⟨⟨hs.command.stdin, hs.command.stdout⟩, hs.command.append⟩ ?_
      (not_isRedirection (by simp [htype]))
    rw [hasCommand_snoc, htype]
    simp [Parser.name]
  | @argument p q token tokens htype hargs _ ih =>
    have hword : token.type = .command ∨ token.type = .argument ∨ token.type = .var :=
      htype.imp_right isString_iff.mp
    rw [segments, if_neg (by rcases hword with h | h | h <;> simp [h])]
    apply ih (hp.argument hargs _)
    refine hs.snoc rfl ⟨⟨hs.command.stdin, hs.command.stdout⟩, hs.command.append⟩ ?_
      (not_isRedirection (by rcases hword with h | h | h <;> simp [h]))
    rw [hasCommand_snoc]
    simp [Parser.argument, hs.named.mp hargs]

lemma Matches.lastWins (h : Matches env lastStatus c segment) :
    LastWins env lastStatus c segment ↔ appendsLast segment := by
  have hmode : c.appendStdout = true ↔ ∃ r ∈ targets none segment, r.1 = .redirectAppend := by
    rw [h.append, List.any_eq_true]
    simp
  have hlast : (lastTarget isOutput segment).map Prod.fst = some .redirectAppend →
      ∃ r ∈ targets none segment, r.1 = .redirectAppend := by
    intro hsome
    obtain ⟨r, hr, htype⟩ := Option.map_eq_some_iff.mp hsome
    exact ⟨r, (List.mem_filter.mp (List.mem_of_getLast? hr)).1, htype⟩
  constructor
  · intro hwins hexists
    exact hwins.mode.mp (hmode.mpr hexists)
  · intro happends
    refine ⟨h.toRedirected, ?_⟩
    rw [hmode]
    exact ⟨happends, hlast⟩

lemma forall₂_lastWins_iff {l : List Command} {segments : List (List Token)}
    (h : List.Forall₂ (Matches env lastStatus) l segments) :
    List.Forall₂ (LastWins env lastStatus) l segments ↔
      ∀ segment ∈ segments, appendsLast segment := by
  induction h with
  | nil => simp
  | cons hc _ ih => rw [List.forall₂_cons, hc.lastWins, ih, List.forall_mem_cons]

theorem lastWins_iff {pipelines : List Pipeline}
    (h : parse env lastStatus tokens = some pipelines) :
    List.Forall₂ (LastWins env lastStatus) (pipelines.flatMap Pipeline.commands)
        (segments [] tokens) ↔
      ∀ segment ∈ segments [] tokens, appendsLast segment := by
  obtain ⟨q, hq, rfl⟩ := Option.map_eq_some_iff.mp h
  have hall := (parses_of_parseFrom hq).segmented (init_stands tokens) init_segmented
  exact forall₂_lastWins_iff hall

def appendThenWrite : List Token :=
  [⟨.command, [97]⟩, ⟨.redirectAppend, [62, 62]⟩, ⟨.argument, [120]⟩, ⟨.redirectOut, [62]⟩,
    ⟨.argument, [121]⟩]

theorem lastWins_appendThenWrite :
    List.Forall₂ (LastWins (fun _ => none) 0)
        ([⟨false, [⟨[[97]], none, some [121], true, .other⟩], 1⟩].flatMap Pipeline.commands)
        (segments [] appendThenWrite) ↔
      ∀ segment ∈ segments [] appendThenWrite, appendsLast segment :=
  lastWins_iff rfl

theorem not_lastWins :
    ¬∀ (env : Environment) (lastStatus : ℤ) (tokens : List Token) (pipelines : List Pipeline),
      parse env lastStatus tokens = some pipelines →
        List.Forall₂ (LastWins env lastStatus) (pipelines.flatMap Pipeline.commands)
          (segments [] tokens) := by
  intro h
  have hall := h (fun _ => none) 0 appendThenWrite
    [⟨false, [⟨[[97]], none, some [121], true, .other⟩], 1⟩] rfl
  change List.Forall₂ (LastWins _ 0) [⟨[[97]], none, some [121], true, .other⟩]
    [appendThenWrite] at hall
  rw [List.forall₂_cons] at hall
  cases hall.1.mode.mp rfl

end SystemsLab.CommandLine
