import SystemsLab.CommandLine.Leftover

namespace SystemsLab.CommandLine

open CLib

variable {env : Environment} {lastStatus : ℤ} {p q r : Parser} {token : Token}
  {tokens tokens' : List Token}

def Command.inherit (left c : Command) : Command :=
  { c with
    stdin := c.stdin <|> left.stdin
    stdout := c.stdout <|> left.stdout
    appendStdout := left.appendStdout || c.appendStdout }

def Pipeline.inherit (isInBackground : Bool) (left : Command) (pipeline : Pipeline) : Pipeline :=
  { pipeline with
    isInBackground := isInBackground || pipeline.isInBackground
    commands := pipeline.commands.modifyHead left.inherit }

namespace Parser

def after (done : List Pipeline) (p : Parser) : Parser := { p with done := done ++ p.done }

def inherit (isInBackground : Bool) (left : Command) (p : Parser) : Parser :=
  match p.done, p.commands with
  | first :: rest, _ => { p with done := first.inherit isInBackground left :: rest }
  | [], first :: rest =>
    { p with
      isInBackground := isInBackground || p.isInBackground
      commands := left.inherit first :: rest }
  | [], [] =>
    { p with
      isInBackground := isInBackground || p.isInBackground
      command := left.inherit p.command }

variable {bg : Bool} {left : Command} {done : List Pipeline}

@[simp] lemma inherit_args : (p.inherit bg left).command.args = p.command.args := by
  rcases p with ⟨_ | ⟨first, rest⟩, b, _ | ⟨c, cs⟩, n, command⟩
  all_goals rfl

@[simp] lemma inherit_numCommands : (p.inherit bg left).numCommands = p.numCommands := by
  rcases p with ⟨_ | ⟨first, rest⟩, b, _ | ⟨c, cs⟩, n, command⟩
  all_goals rfl

lemma inherit_pipelines :
    (p.inherit bg left).pipelines = p.pipelines.modifyHead (Pipeline.inherit bg left) := by
  rcases p with ⟨_ | ⟨first, rest⟩, b, _ | ⟨c, cs⟩, n, command⟩
  all_goals rfl

lemma inherit_separate : (p.inherit bg left).separate = p.separate.inherit bg left := by
  rw [separate, separate, inherit_args, inherit_numCommands]
  split_ifs
  · rfl
  · rcases p with ⟨_ | ⟨first, rest⟩, b, _ | ⟨c, cs⟩, n, command⟩
    all_goals rfl

lemma inherit_pipe : (p.inherit bg left).pipe = p.pipe.inherit bg left := by
  rcases p with ⟨_ | ⟨first, rest⟩, b, _ | ⟨c, cs⟩, n, command⟩
  all_goals rfl

lemma inherit_redirect (type : TokenType) (file : Bytes) :
    (p.inherit bg left).redirect type file = (p.redirect type file).inherit bg left := by
  rcases p with ⟨_ | ⟨first, rest⟩, b, _ | ⟨c, cs⟩, n, command⟩
  all_goals cases type <;> simp [inherit, redirect, Command.inherit]

lemma inherit_background : (p.inherit bg left).background = p.background.inherit bg left := by
  rcases p with ⟨_ | ⟨first, rest⟩, b, _ | ⟨c, cs⟩, n, command⟩
  all_goals simp [inherit, background]

lemma inherit_name (arg : Bytes) :
    (p.inherit bg left).name token arg = (p.name token arg).inherit bg left := by
  rcases p with ⟨_ | ⟨first, rest⟩, b, _ | ⟨c, cs⟩, n, command⟩
  all_goals rfl

lemma inherit_argument (arg : Bytes) :
    (p.inherit bg left).argument arg = (p.argument arg).inherit bg left := by
  rcases p with ⟨_ | ⟨first, rest⟩, b, _ | ⟨c, cs⟩, n, command⟩
  all_goals rfl

lemma after_pipelines : (p.after done).pipelines = done ++ p.pipelines := by
  rw [pipelines, pipelines, ← List.append_assoc]
  rfl

lemma after_separate : (p.after done).separate = p.separate.after done := by
  have hnum : (p.after done).numCommands = p.numCommands := rfl
  have hargs : (p.after done).command.args = p.command.args := rfl
  rw [separate, separate, hnum, hargs]
  split_ifs
  · rfl
  · rw [after, after, List.append_assoc]
    rfl

lemma after_redirect (type : TokenType) (file : Bytes) :
    (p.after done).redirect type file = (p.redirect type file).after done := by
  cases type <;> rfl

end Parser

lemma Parses.inherit (h : Parses env lastStatus p tokens q) (bg : Bool) (left : Command) :
    Parses env lastStatus (p.inherit bg left) tokens (q.inherit bg left) := by
  induction h with
  | done p => exact .done _
  | sep htype _ ih => exact .sep htype (Parser.inherit_separate ▸ ih)
  | pipe htype hargs hnext _ ih =>
    exact .pipe htype (Parser.inherit_args.trans_ne hargs) hnext (Parser.inherit_pipe ▸ ih)
  | redirect htype hfile _ ih =>
    exact .redirect htype hfile (Parser.inherit_redirect _ _ ▸ ih)
  | background htype _ ih => exact .background htype (Parser.inherit_background ▸ ih)
  | name htype hargs _ ih =>
    exact .name htype (Parser.inherit_args.trans hargs) (Parser.inherit_name _ ▸ ih)
  | argument htype hargs _ ih =>
    exact .argument htype (Parser.inherit_args.trans_ne hargs) (Parser.inherit_argument _ ▸ ih)

lemma Parses.after (h : Parses env lastStatus p tokens q) (done : List Pipeline) :
    Parses env lastStatus (p.after done) tokens (q.after done) := by
  induction h with
  | done p => exact .done _
  | sep htype _ ih => exact .sep htype (Parser.after_separate ▸ ih)
  | pipe htype hargs hnext _ ih => exact .pipe htype hargs hnext ih
  | redirect htype hfile _ ih => exact .redirect htype hfile (Parser.after_redirect _ _ ▸ ih)
  | background htype _ ih => exact .background htype ih
  | name htype hargs _ ih => exact .name htype hargs ih
  | argument htype hargs _ ih => exact .argument htype hargs ih

lemma Command.inherit_eq_self_iff {left c : Command} :
    left.inherit c = c ↔ left.redirections ≤ c.redirections := by
  rcases left with ⟨args, _ | i, _ | o, _ | _, type⟩
  all_goals
    rcases c with ⟨args', _ | i', _ | o', _ | _, type'⟩
    all_goals simp [Command.inherit, Command.redirections, Prod.le_def]

lemma Pipeline.inherit_eq_self_iff {pipeline : Pipeline} {bg : Bool} {left c : Command}
    (hc : pipeline.commands.head? = some c) :
    pipeline.inherit bg left = pipeline ↔
      left.redirections ≤ c.redirections ∧ (bg = true → pipeline.isInBackground = true) := by
  obtain ⟨b, _ | ⟨c', commands⟩, n⟩ := pipeline
  · cases hc
  · obtain rfl := Option.some.inj hc
    rw [← Command.inherit_eq_self_iff]
    cases b <;> cases bg <;> simp [Pipeline.inherit]

lemma runnable_append (l l' : List Pipeline) : runnable (l ++ l') = runnable l ++ runnable l' :=
  List.filter_append l l'

lemma runnable_inherit_iff {l : List Pipeline} {pipeline : Pipeline} {bg : Bool} {left c : Command}
    (hl : l.head? = some pipeline) (hc : pipeline.commands.head? = some c) :
    runnable (l.modifyHead (Pipeline.inherit bg left)) = runnable l ↔
      (0 < pipeline.numCommands → left.redirections ≤ c.redirections ∧
        (bg = true → pipeline.isInBackground = true)) := by
  cases l with
  | nil => cases hl
  | cons first rest =>
    obtain rfl := Option.some.inj hl
    have hnum : (first.inherit bg left).numCommands = first.numCommands := rfl
    rw [List.modifyHead_cons, runnable, runnable, List.filter_cons, List.filter_cons, hnum]
    by_cases hpos : 0 < first.numCommands
    · simp [hpos, ← Pipeline.inherit_eq_self_iff hc]
    · simp [hpos]

lemma Parser.Ready.separate_inherit (h : p.Ready) (h0 : p.numCommands = 0) :
    p.separate = (init.inherit p.isInBackground p.command).after p.done := by
  obtain ⟨hcommands, hargs, htype⟩ := h.empty h0
  rw [separate_of_empty h0]
  obtain ⟨done, bg, commands, n, ⟨args, stdin, stdout, appendStdout, type⟩⟩ := p
  simp only at h0 hcommands hargs htype
  subst h0 hcommands hargs htype
  simp [after, inherit, init, Command.inherit, defaultCommand]

lemma parse_sep {a b : List Token} {sep : Token} (hsep : sep.type = .sep)
    {pa pb : List Pipeline} (ha : parse env lastStatus a = some pa)
    (hb : parse env lastStatus b = some pb) :
    ∃ pipelines, parse env lastStatus (a ++ sep :: b) = some pipelines ∧
      (runnable pipelines = runnable pa ++ runnable pb ↔ Separable a b) := by
  rw [parse, Option.map_eq_some_iff] at ha hb
  obtain ⟨qa, hqa, rfl⟩ := ha
  obtain ⟨qb, hqb, rfl⟩ := hb
  rw [parseFrom_iff] at hqa hqb
  have hready := hqa.ready (init_stands a)
  have hinit : Leaves .init (some []) := ⟨rfl, rfl, rfl⟩
  have hleaves := hqa.leaves (init_stands a) hinit
  rcases Nat.eq_zero_or_pos qa.numCommands with h0 | hpos
  · have hparse : Parses env lastStatus .init (a ++ sep :: b)
        ((qb.inherit qa.isInBackground qa.command).after qa.done) := by
      apply hqa.append
      apply Parses.sep hsep
      rw [hready.separate_inherit h0]
      exact (hqb.inherit _ _).after _
    obtain ⟨pipeline, c, hpipeline, hheads⟩ := hqb.heads (init_stands b) rfl
    have hleft : hasAmpersand (leftover a) = qa.isInBackground ∧
        redirections (leftover a) = qa.command.redirections := by
      rw [leftover]
      cases hl : a.foldl leftoverStep (some []) with
      | none =>
        rw [hl] at hleaves
        exact absurd h0 (Nat.pos_iff_ne_zero.mp hleaves)
      | some left =>
        rw [hl] at hleaves
        exact ⟨hleaves.2.1.symm, hleaves.2.2.symm⟩
    have hbackground : pipeline.isInBackground = hasAmpersand (firstPart false b) :=
      hheads.background
    have hfirst : c.redirections = redirections (firstCommand b) := by
      rw [hheads.first rfl]
      exact bot_sup_eq _
    have hrunnable : 0 < pipeline.numCommands ↔ hasCommand b = true := by
      rw [hheads.runnable]
      simp [isNamed, Parser.init]
    have hlast : runnable qa.pipelines = runnable qa.done := by
      rw [Parser.pipelines, runnable_append]
      simp [runnable, Parser.pipeline, h0]
    refine ⟨_, congrArg (Option.map Parser.pipelines) (parseFrom_of_parses hparse), ?_⟩
    rw [Parser.after_pipelines, Parser.inherit_pipelines, runnable_append, hlast,
      List.append_cancel_left_eq, runnable_inherit_iff hpipeline hheads.command, Separable,
      hleft.1, hleft.2, ← hfirst, ← hbackground, ← hrunnable]
  · have hparse : Parses env lastStatus .init (a ++ sep :: b)
        (qb.after (qa.done ++ [qa.pipeline])) := by
      apply hqa.append
      apply Parses.sep hsep
      rw [hready.separate_of_pos hpos]
      have hafter := hqb.after (qa.done ++ [qa.pipeline])
      rwa [Parser.after, Parser.init, List.append_nil] at hafter
    have hnil : leftover a = [] := by
      rw [leftover]
      cases hl : a.foldl leftoverStep (some []) with
      | none => rfl
      | some left =>
        rw [hl] at hleaves
        exact absurd hleaves.1 hpos.ne'
    refine ⟨_, congrArg (Option.map Parser.pipelines) (parseFrom_of_parses hparse), ?_⟩
    rw [Parser.after_pipelines, Separable, hnil]
    refine iff_of_true ?_ fun _ => ⟨bot_le, fun h => ?_⟩
    · exact runnable_append qa.pipelines qb.pipelines
    · cases h

theorem separator_composes_iff {a b : List Token} {sep : Token} (hsep : sep.type = .sep)
    {pa pb : List Pipeline} (ha : parse env lastStatus a = some pa)
    (hb : parse env lastStatus b = some pb) :
    (∃ pipelines, parse env lastStatus (a ++ sep :: b) = some pipelines ∧
      runnable pipelines = runnable pa ++ runnable pb) ↔ Separable a b := by
  obtain ⟨pipelines, hparse, hiff⟩ := parse_sep hsep ha hb
  constructor
  · rintro ⟨pipelines', hparse', hrunnable⟩
    rw [hparse] at hparse'
    obtain rfl := Option.some.inj hparse'
    exact hiff.mp hrunnable
  · intro h
    exact ⟨pipelines, hparse, hiff.mpr h⟩

theorem separator_composes_iff_ampersand :
    (∃ pipelines, parse (fun _ => none) 0
        ([⟨.background, [38]⟩] ++ sepToken :: [⟨.command, [108, 115]⟩, ⟨.background, [38]⟩]) =
          some pipelines ∧
      runnable pipelines = runnable [⟨true, [defaultCommand], 0⟩] ++
        runnable [⟨true, [{ defaultCommand with args := [[108, 115]], type := .other }], 1⟩]) ↔
      Separable [⟨.background, [38]⟩] [⟨.command, [108, 115]⟩, ⟨.background, [38]⟩] :=
  separator_composes_iff rfl rfl (by decide)

theorem separator_leaks_redirection :
    parse (fun _ => none) 0 [⟨.redirectOut, [62]⟩, ⟨.argument, [102]⟩] =
        some [⟨false, [{ defaultCommand with stdout := some [102] }], 0⟩] ∧
      parse (fun _ => none) 0 [⟨.command, [108, 115]⟩] =
        some [⟨false, [{ defaultCommand with args := [[108, 115]], type := .other }], 1⟩] ∧
      parse (fun _ => none) 0
          ([⟨.redirectOut, [62]⟩, ⟨.argument, [102]⟩] ++ sepToken :: [⟨.command, [108, 115]⟩]) =
        some [⟨false, [{ defaultCommand with
          args := [[108, 115]], stdout := some [102], type := .other }], 1⟩] ∧
      runnable [⟨false, [{ defaultCommand with
          args := [[108, 115]], stdout := some [102], type := .other }], 1⟩] ≠
        runnable [⟨false, [{ defaultCommand with stdout := some [102] }], 0⟩] ++
          runnable [⟨false, [{ defaultCommand with args := [[108, 115]], type := .other }], 1⟩] := by
  decide

end SystemsLab.CommandLine
