import SystemsLab.CommandLine.Input
import SystemsLab.CommandLine.Lexing

namespace SystemsLab.CommandLine

open CLib

def isWord (token : Token) : Bool := token.type == .command || isString token

def argumentTokens (previous : Option Token) : List Token → List Token
  | [] => []
  | token :: tokens =>
    if isWord token ∧ ¬previous.any isRedirection then
      token :: argumentTokens (some token) tokens
    else argumentTokens (some token) tokens

def CommandCells.argList (c : CommandCells) : List (Option Bytes) :=
  (List.range c.numArgs).map c.args

structure Complete (env : Environment) (lastStatus : ℤ) (tokens : List Token)
    (pipelines : List PipelineCells) : Prop where
  count : ∀ pipeline ∈ pipelines, 0 < pipeline.numCommands →
    pipeline.commands.length = pipeline.numCommands
  named : ∀ pipeline ∈ pipelines, 0 < pipeline.numCommands → ∀ c ∈ pipeline.commands,
    0 < c.numArgs ∧ c.args c.numArgs = none ∧ c.type ≠ .null
  args : (pipelines.flatMap PipelineCells.commands).flatMap CommandCells.argList =
    (argumentTokens none tokens).map fun t => some (toArgument env t lastStatus)

variable {env : Environment} {lastStatus : ℤ} {p q : Parser} {token : Token}
  {tokens tokens' : List Token} {s cmd : Bytes}

def Command.Named (c : Command) : Prop := c.args ≠ [] ∧ c.type ≠ .null

structure Counted (p : Parser) : Prop where
  done : ∀ pipeline ∈ p.done, pipeline.commands.length = pipeline.numCommands ∧
    ∀ c ∈ pipeline.commands, c.Named
  commands : ∀ c ∈ p.commands, c.Named
  count : p.numCommands = p.commands.length + if p.command.args = [] then 0 else 1
  current : p.command.args ≠ [] → p.command.type ≠ .null

lemma init_counted : Counted .init := ⟨nofun, nofun, rfl, fun h => absurd rfl h⟩

lemma Counted.pipeline (h : Counted p) (hargs : p.command.args ≠ []) :
    p.pipeline.commands.length = p.pipeline.numCommands ∧ ∀ c ∈ p.pipeline.commands, c.Named := by
  constructor
  · have hcount := h.count
    rw [if_neg hargs] at hcount
    rw [Parser.pipeline, List.length_append, List.length_singleton, hcount]
  · intro c hc
    rcases List.mem_append.mp hc with hc | hc
    · exact h.commands c hc
    · rw [List.mem_singleton.mp hc]
      exact ⟨hargs, h.current hargs⟩

lemma Counted.separate (h : Counted p) (hr : p.Ready) : Counted p.separate := by
  rcases Nat.eq_zero_or_pos p.numCommands with h0 | hpos
  · rwa [Parser.separate_of_empty h0]
  · rw [hr.separate_of_pos hpos]
    refine { init_counted with done := fun pipeline hmem => ?_ }
    rcases List.mem_append.mp hmem with hmem | hmem
    · exact h.done pipeline hmem
    · rw [List.mem_singleton.mp hmem]
      exact h.pipeline (hr.named hpos)

lemma Counted.pipe (h : Counted p) (hargs : p.command.args ≠ []) : Counted p.pipe := by
  obtain ⟨hlength, hnamed⟩ := h.pipeline hargs
  exact ⟨h.done, hnamed, hlength.symm, fun hnil => absurd rfl hnil⟩

lemma Counted.redirect (h : Counted p) (type : TokenType) (file : Bytes) :
    Counted (p.redirect type file) := by
  refine ⟨?_, ?_, ?_, ?_⟩
  · rw [Parser.redirect_done]
    exact h.done
  · rw [Parser.redirect_commands]
    exact h.commands
  · rw [Parser.redirect_numCommands, Parser.redirect_commands, Parser.redirect_args]
    exact h.count
  · rw [Parser.redirect_args, Parser.redirect_type]
    exact h.current

lemma Counted.name (h : Counted p) (hargs : p.command.args = []) (token : Token) (arg : Bytes) :
    Counted (p.name token arg) := by
  refine ⟨h.done, h.commands, ?_, fun _ => ?_⟩
  · have hcount := h.count
    rw [if_pos hargs] at hcount
    simp [Parser.name, hcount]
  · simp only [Parser.name]
    split_ifs <;> simp

lemma Counted.argument (h : Counted p) (hargs : p.command.args ≠ []) (arg : Bytes) :
    Counted (p.argument arg) := by
  refine ⟨h.done, h.commands, ?_, fun _ => h.current hargs⟩
  have hcount := h.count
  rw [if_neg hargs] at hcount
  simp [Parser.argument, hcount]

lemma Parses.counted (h : Parses env lastStatus p tokens q) (hp : Stands p tokens)
    (hc : Counted p) : Counted q := by
  induction h with
  | done p => exact hc
  | @sep p q token tokens htype _ ih =>
    have hr : p.Ready := by
      apply hp.ready
      rw [htype]
      exact nofun
    exact ih (hp.sep htype) (hc.separate hr)
  | pipe htype hargs hnext _ ih => exact ih (hp.pipe hargs hnext) (hc.pipe hargs)
  | redirect htype hfile _ ih => exact ih (hp.redirect htype _ _) (hc.redirect _ _)
  | background htype _ ih =>
    exact ih (hp.background htype) ⟨hc.done, hc.commands, hc.count, hc.current⟩
  | name htype hargs _ ih => exact ih (hp.name _ _) (hc.name hargs _ _)
  | argument htype hargs _ ih => exact ih (hp.argument hargs _) (hc.argument hargs _)

def Parser.allArgs (p : Parser) : List Bytes :=
  (p.pipelines.flatMap Pipeline.commands).flatMap Command.args

lemma allArgs_eq (p : Parser) : p.allArgs =
    (p.done.flatMap Pipeline.commands ++ p.commands).flatMap Command.args ++ p.command.args := by
  simp [Parser.allArgs, Parser.pipelines, Parser.pipeline]

lemma allArgs_separate : p.separate.allArgs = p.allArgs := by
  rw [Parser.separate]
  split_ifs
  · rfl
  · simp [allArgs_eq, Parser.init, defaultCommand, Parser.pipeline]

lemma allArgs_pipe : p.pipe.allArgs = p.allArgs := by
  simp [allArgs_eq, Parser.pipe, defaultCommand]

lemma allArgs_background : p.background.allArgs = p.allArgs := by
  simp [allArgs_eq, Parser.background]

lemma allArgs_redirect (type : TokenType) (file : Bytes) :
    (p.redirect type file).allArgs = p.allArgs := by
  rw [allArgs_eq, allArgs_eq, Parser.redirect_done, Parser.redirect_commands, Parser.redirect_args]

lemma allArgs_name (hargs : p.command.args = []) (token : Token) (arg : Bytes) :
    (p.name token arg).allArgs = p.allArgs ++ [arg] := by
  simp [allArgs_eq, Parser.name, hargs]

lemma allArgs_argument (arg : Bytes) : (p.argument arg).allArgs = p.allArgs ++ [arg] := by
  simp [allArgs_eq, Parser.argument]

lemma isRedirection_of_isWord (h : isWord token = true) : isRedirection token = false := by
  rw [isWord, Bool.or_eq_true, beq_iff_eq, isString_iff] at h
  rcases h with h | h | h <;> simp [isRedirection, h]

lemma not_isWord_of_type (h : token.type = .sep ∨ token.type = .pipe ∨ token.type = .background) :
    isWord token = false ∧ isRedirection token = false := by
  rcases h with h | h | h <;> simp [isWord, isString, isRedirection, h]

lemma not_isWord_of_isRedirection (h : isRedirection token = true) : isWord token = false := by
  rw [Bool.eq_false_iff]
  intro hword
  rw [isRedirection_of_isWord hword] at h
  cases h

lemma Parses.allArgs (h : Parses env lastStatus p tokens q) {previous : Option Token}
    (hprevious : previous.any isRedirection = false) :
    q.allArgs = p.allArgs ++
      (argumentTokens previous tokens).map fun t => toArgument env t lastStatus := by
  induction h generalizing previous with
  | done p => exact (List.append_nil _).symm
  | @sep p q token tokens htype _ ih =>
    obtain ⟨hword, hredirection⟩ := not_isWord_of_type (Or.inl htype)
    rw [argumentTokens, if_neg (by simp [hword]), ← allArgs_separate (p := p)]
    apply ih
    exact hredirection
  | @pipe p q token tokens htype _ _ _ ih =>
    obtain ⟨hword, hredirection⟩ := not_isWord_of_type (Or.inr (Or.inl htype))
    rw [argumentTokens, if_neg (by simp [hword]), ← allArgs_pipe (p := p)]
    apply ih
    exact hredirection
  | @background p q token tokens htype _ ih =>
    obtain ⟨hword, hredirection⟩ := not_isWord_of_type (Or.inr (Or.inr htype))
    rw [argumentTokens, if_neg (by simp [hword]), ← allArgs_background (p := p)]
    apply ih
    exact hredirection
  | @redirect p q token file tokens htype hfile _ ih =>
    have hword : isWord file = true := by simp [isWord, hfile]
    rw [argumentTokens, if_neg (by simp [not_isWord_of_isRedirection htype]), argumentTokens,
      if_neg (by simp [htype]), ← allArgs_redirect (p := p) token.type (toArgument env file lastStatus)]
    apply ih
    exact isRedirection_of_isWord hword
  | @name p q token tokens htype hargs _ ih =>
    have hword : isWord token = true := by simp [isWord, htype]
    have hrest := ih (show (some token).any isRedirection = false from isRedirection_of_isWord hword)
    rw [argumentTokens, if_pos ⟨hword, by simp [hprevious]⟩, hrest, allArgs_name hargs, List.append_assoc]
    rfl
  | @argument p q token tokens htype hargs _ ih =>
    have hword : isWord token = true := by
      rcases htype with htype | htype <;> simp [isWord, htype]
    have hrest := ih (show (some token).any isRedirection = false from isRedirection_of_isWord hword)
    rw [argumentTokens, if_pos ⟨hword, by simp [hprevious]⟩, hrest, allArgs_argument, List.append_assoc]
    rfl

lemma cells_argList (c : Command) : c.cells.argList = c.args.map some := by
  apply List.ext_getElem?
  intro i
  simp only [CommandCells.argList, Command.cells, List.getElem?_map]
  by_cases hi : i < c.args.length
  · simp [hi]
  · simp [hi]

lemma complete_of_parse {pipelines : List Pipeline}
    (h : parse env lastStatus tokens = some pipelines) :
    Complete env lastStatus tokens (pipelines.map Pipeline.cells) := by
  obtain ⟨q, hq, rfl⟩ := Option.map_eq_some_iff.mp h
  have hparses := parses_of_parseFrom hq
  have hready := hparses.ready (init_stands tokens)
  have hcounted := hparses.counted (init_stands tokens) init_counted
  have hall : ∀ pipeline ∈ q.pipelines, 0 < pipeline.numCommands →
      pipeline.commands.length = pipeline.numCommands ∧ ∀ c ∈ pipeline.commands, c.Named := by
    intro pipeline hmem hpos
    rcases List.mem_append.mp hmem with hmem | hmem
    · exact hcounted.done pipeline hmem
    · obtain rfl := List.mem_singleton.mp hmem
      exact hcounted.pipeline (hready.named hpos)
  constructor
  · rintro _ hmem hpos
    obtain ⟨pipeline, hpipeline, rfl⟩ := List.mem_map.mp hmem
    rw [Pipeline.cells, List.length_map]
    exact (hall pipeline hpipeline hpos).1
  · rintro _ hmem hpos _ hc
    obtain ⟨pipeline, hpipeline, rfl⟩ := List.mem_map.mp hmem
    obtain ⟨c, hcmem, rfl⟩ := List.mem_map.mp hc
    obtain ⟨hargs, htype⟩ := (hall pipeline hpipeline hpos).2 c hcmem
    exact ⟨List.length_pos_iff.mpr hargs, List.getElem?_eq_none le_rfl, htype⟩
  · have hargs : q.allArgs = Parser.init.allArgs ++ (argumentTokens none tokens).map fun t =>
        toArgument env t lastStatus := hparses.allArgs rfl
    have hmap : (q.pipelines.map Pipeline.cells).flatMap PipelineCells.commands =
        (q.pipelines.flatMap Pipeline.commands).map Command.cells := by
      simp [List.flatMap_map, List.map_flatMap, Pipeline.cells]
    have hsome : ((q.pipelines.flatMap Pipeline.commands).map Command.cells).flatMap
        CommandCells.argList = q.allArgs.map some := by
      rw [List.flatMap_map, Parser.allArgs, List.map_flatMap]
      simp only [cells_argList]
    rw [hmap, hsome, hargs]
    simp [Parser.allArgs, Parser.pipelines, Parser.pipeline, Parser.init, defaultCommand]

lemma lexFrom_length_lt (h : lexFrom tokens s = .ok tokens') (hroom : tokens.length < maxTokens) :
    tokens'.length < maxTokens := by
  fun_induction lexFrom tokens s with
  | case1 tokens =>
    cases h
    exact hroom
  | case2 tokens c s hspace ih => exact ih h hroom
  | case3 => cases h
  | case4 => cases h
  | case5 tokens c s hspace hfull token rest hchar ih =>
    apply ih h
    rw [List.length_append]
    have hone : token.toList.length ≤ 1 := by cases token <;> simp
    omega

lemma lex_bounds (h : lex cmd = .ok tokens) : tokens ≠ [] ∧ tokens.length < maxTokens := by
  obtain ⟨hfrom, hend⟩ := lex_ok h
  refine ⟨?_, lexFrom_length_lt hfrom (by decide)⟩
  rintro rfl
  cases hend

theorem parseInto_complete (h : lex cmd = .ok tokens) (env : Environment) (lastStatus : ℤ) :
    ∃ status pipelines, parseInto env lastStatus tokens = .ok (status, pipelines) ∧
      (status = 0 → Complete env lastStatus tokens pipelines) ∧
      (status ≠ 0 → pipelines = []) := by
  obtain ⟨hne, hroom⟩ := lex_bounds h
  rw [parseInto_eq hne hroom]
  cases hparse : parse env lastStatus tokens with
  | none => exact ⟨1, [], rfl, nofun, fun _ => rfl⟩
  | some pipelines =>
    exact ⟨0, pipelines.map Pipeline.cells, rfl, fun _ => complete_of_parse hparse,
      fun h0 => absurd rfl h0⟩

def composedTokens : List Token :=
  [⟨.command, ascii "a"⟩, ⟨.argument, ascii "b"⟩, ⟨.pipe, ascii "|"⟩, ⟨.command, ascii "c"⟩,
    ⟨.redirectOut, ascii ">"⟩, ⟨.argument, ascii "d"⟩, ⟨.sep, ascii ";"⟩, ⟨.command, ascii "e"⟩]

theorem parseInto_complete_composed : ∃ pipelines,
    parseInto (fun _ => none) 0 composedTokens = .ok (0, pipelines) ∧
      Complete (fun _ => none) 0 composedTokens pipelines := by
  have hlex : lex (ascii "a b | c > d ; e") = .ok composedTokens := by
    rw [lex, lexFrom_eq (by decide)]
    rfl
  obtain ⟨status, pipelines, hrun, hcomplete, -⟩ := parseInto_complete hlex (fun _ => none) 0
  obtain ⟨parsed, hparse⟩ : ∃ parsed, parse (fun _ => none) 0 composedTokens = some parsed :=
    Option.isSome_iff_exists.mp (by decide)
  have hzero : parseInto (fun _ => none) 0 composedTokens = .ok (0, parsed.map Pipeline.cells) := by
    rw [parseInto_eq (by decide) (by decide), hparse]
  rw [hrun] at hzero
  cases hzero
  exact ⟨_, hrun, hcomplete rfl⟩

end SystemsLab.CommandLine
